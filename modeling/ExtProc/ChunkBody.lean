import ExtProc.Response

/-! A body is split at the limit, and nothing of it is lost. -/
namespace ExtProc.Reply

open Utf8 (Bytes)

variable {data : Bytes} {c : Chunking}

def startOfBody : Chunking := { chunks := [], offset := 0 }

/-- Chunks at the limit, with more to come. -/
def Full (chunks : List (Bytes × Bool)) : Prop :=
  ∀ c ∈ chunks, c.1.length = bodyChunkLimit ∧ c.2 = false

/-- The chunks add up to the body: all but the last are full, and only the last ends the stream. -/
structure SplitsAtLimit (data : Bytes) (chunks : List (Bytes × Bool)) : Prop where
  joined : (chunks.map Prod.fst).flatten = data
  shape : ∃ full last, chunks = full ++ [(last, true)] ∧ Full full ∧
    last.length ≤ bodyChunkLimit ∧ (data ≠ [] → 1 ≤ last.length)
  count : chunks.length = max 1 ((data.length + (bodyChunkLimit - 1)) / bodyChunkLimit)

/-- The loop stops, every slice it takes is in bounds, and every pass makes one chunk. -/
structure TakesEverySlice (data : Bytes) : Prop where
  stops : data.length ≤ ((chunkLoop data).run startOfBody).offset
  inBounds : ∀ c ∈ (chunkLoop data).passes startOfBody, c.offset ≤ chunkEnd data c.offset ∧
    chunkEnd data c.offset ≤ data.length ∧ (sliceGet data c.offset (chunkEnd data c.offset)).isSome
  noneSkipped : data ≠ [] →
    ((chunkLoop data).passes startOfBody).length = (chunkBody data).length

theorem chunkEnd_bounds (h : c.offset < data.length) :
    c.offset ≤ chunkEnd data c.offset ∧ chunkEnd data c.offset ≤ data.length := by
  simp only [chunkEnd]
  omega

theorem sliceGet_chunkEnd (h : c.offset < data.length) :
    sliceGet data c.offset (chunkEnd data c.offset) =
      some ((data.drop c.offset).take bodyChunkLimit) := by
  have hbounds := chunkEnd_bounds h
  rw [sliceGet, if_pos hbounds, Option.some.injEq, chunkEnd]
  by_cases hfull : c.offset + bodyChunkLimit ≤ data.length
  · have hstop : min (c.offset + bodyChunkLimit) data.length - c.offset = bodyChunkLimit := by omega
    rw [hstop]
  · have hstop : min (c.offset + bodyChunkLimit) data.length - c.offset =
        data.length - c.offset := by omega
    have hall : (data.drop c.offset).length ≤ data.length - c.offset := by simp
    have hrest : (data.drop c.offset).length ≤ bodyChunkLimit := by
      simp only [List.length_drop]
      omega
    rw [hstop, List.take_of_length_le hall, List.take_of_length_le hrest]

/-- A pass takes what the limit allows of the rest. -/
theorem chunkStep_eq (h : c.offset < data.length) :
    chunkStep data c =
      { chunks := c.chunks ++
          [((data.drop c.offset).take bodyChunkLimit, chunkEnd data c.offset == data.length)]
        offset := chunkEnd data c.offset } := by
  simp only [chunkStep, sliceGet_chunkEnd h]

/-- Either full chunks cover the body up to the offset, or the last chunk is among them. -/
inductive Progress (data : Bytes) : Chunking → Prop
  | going {c : Chunking} (hfull : Full c.chunks)
      (hoffset : c.offset = bodyChunkLimit * c.chunks.length) (hmore : c.offset < data.length)
      (hjoined : (c.chunks.map Prod.fst).flatten = data.take c.offset) : Progress data c
  | done {full : List (Bytes × Bool)} {last : Bytes} (hfull : Full full)
      (hlast : last.length ≤ bodyChunkLimit) (hsome : 1 ≤ last.length)
      (hlength : data.length = bodyChunkLimit * full.length + last.length)
      (hjoined : ((full ++ [(last, true)]).map Prod.fst).flatten = data) :
      Progress data { chunks := full ++ [(last, true)], offset := data.length }

theorem progress_start (h : data ≠ []) : Progress data startOfBody := by
  have hpos : 0 < data.length := List.length_pos_iff.mpr h
  refine .going ?_ rfl hpos rfl
  intro c hc
  cases hc

/-- The chunks after a pass, joined. -/
theorem joined_step (hjoined : (c.chunks.map Prod.fst).flatten = data.take c.offset) (eos : Bool) :
    ((c.chunks ++ [((data.drop c.offset).take bodyChunkLimit, eos)]).map Prod.fst).flatten =
      data.take (c.offset + bodyChunkLimit) := by
  rw [List.map_append, List.flatten_append, hjoined, List.take_add]
  simp

/-- A pass that leaves more takes a full chunk. -/
theorem chunkStep_more (h : c.offset + bodyChunkLimit < data.length) :
    chunkStep data c =
      { chunks := c.chunks ++ [((data.drop c.offset).take bodyChunkLimit, false)]
        offset := c.offset + bodyChunkLimit } := by
  have hstop : chunkEnd data c.offset = c.offset + bodyChunkLimit := by
    rw [chunkEnd]
    omega
  have hopen : (c.offset + bodyChunkLimit == data.length) = false := by
    rw [beq_eq_false_iff_ne]
    omega
  rw [chunkStep_eq (by omega), hstop, hopen]

/-- A pass that reaches the end takes the last chunk. -/
theorem chunkStep_last (h : c.offset < data.length)
    (hend : data.length ≤ c.offset + bodyChunkLimit) :
    chunkStep data c =
      { chunks := c.chunks ++ [((data.drop c.offset).take bodyChunkLimit, true)]
        offset := data.length } := by
  have hstop : chunkEnd data c.offset = data.length := by
    rw [chunkEnd]
    omega
  rw [chunkStep_eq h, hstop, beq_self_eq_true]

theorem full_append (hfull : Full c.chunks) (h : c.offset + bodyChunkLimit < data.length) :
    Full (c.chunks ++ [((data.drop c.offset).take bodyChunkLimit, false)]) := by
  intro d hd
  rcases List.mem_append.mp hd with hd | hd
  · exact hfull d hd
  · rw [List.mem_singleton.mp hd]
    refine ⟨?_, rfl⟩
    simp only [List.length_take, List.length_drop]
    omega

theorem progress_step (h : Progress data c) (hguard : (chunkLoop data).guard c = true) :
    Progress data ((chunkLoop data).body c) := by
  have hlt : c.offset < data.length := of_decide_eq_true hguard
  cases h with
  | done hfull hlast hsome hlength hjoined => exact (Nat.lt_irrefl _ hlt).elim
  | going hfull hoffset hmore hjoined =>
    have hnext := joined_step hjoined
    by_cases hend : c.offset + bodyChunkLimit < data.length
    · have hbody : (chunkLoop data).body c = _ := chunkStep_more hend
      rw [hbody]
      refine .going (full_append hfull hend) ?_ hend (hnext false)
      simp only [hoffset, List.length_append, List.length_singleton, Nat.mul_succ]
    · have hbody : (chunkLoop data).body c = _ := chunkStep_last hlt (by omega)
      have hlength : ((data.drop c.offset).take bodyChunkLimit).length =
          data.length - c.offset := by
        simp only [List.length_take, List.length_drop]
        omega
      rw [hbody]
      refine .done hfull ?_ ?_ ?_ ?_
      · omega
      · omega
      · omega
      · rw [hnext true]
        apply List.take_of_length_le
        omega

theorem chunks_step (c : Chunking) (_ : Progress data c) (hguard : (chunkLoop data).guard c = true) :
    ((chunkLoop data).body c).chunks.length = c.chunks.length + 1 := by
  have hbody : (chunkLoop data).body c = _ := chunkStep_eq (of_decide_eq_true hguard)
  rw [hbody]
  exact List.length_append

/-- A loop that has stopped is through with the body. -/
theorem splitsAtLimit_of_progress (h : Progress data c) (hdone : data.length ≤ c.offset) :
    SplitsAtLimit data c.chunks := by
  cases h with
  | going hfull hoffset hmore hjoined => omega
  | @done full last hfull hlast hsome hlength hjoined =>
    refine ⟨hjoined, ⟨full, last, rfl, hfull, hlast, fun _ => hsome⟩, ?_⟩
    simp only [List.length_append, List.length_singleton, hlength, bodyChunkLimit] at hlast ⊢
    omega

theorem splitsAtLimit_empty : SplitsAtLimit [] [([], true)] := by
  refine ⟨rfl, ⟨[], [], rfl, ?_, Nat.zero_le _, fun h => (h rfl).elim⟩, by decide⟩
  intro c hc
  cases hc

theorem offset_lt_of_mem_passes (h : c ∈ (chunkLoop data).passes startOfBody) :
    c.offset < data.length :=
  of_decide_eq_true (WhileLoop.guard_of_mem_passes h)

theorem slice_inBounds (h : c.offset < data.length) : c.offset ≤ chunkEnd data c.offset ∧
    chunkEnd data c.offset ≤ data.length ∧
    (sliceGet data c.offset (chunkEnd data c.offset)).isSome := by
  have hrange := chunkEnd_bounds h
  refine ⟨hrange.1, hrange.2, ?_⟩
  rw [sliceGet_chunkEnd h]
  rfl

theorem run_stops (data : Bytes) :
    data.length ≤ ((chunkLoop data).run startOfBody).offset := by
  have hdone := (chunkLoop data).guard_run startOfBody
  simpa [chunkLoop] using hdone

theorem chunkBody_eq (h : data ≠ []) :
    chunkBody data = ((chunkLoop data).run startOfBody).chunks := by
  simp [chunkBody, startOfBody, h]

theorem passes_counted (h : data ≠ []) :
    ((chunkLoop data).passes startOfBody).length = (chunkBody data).length := by
  have hcount := WhileLoop.run_counts (f := fun c => c.chunks.length)
    (fun _ => progress_step) chunks_step (progress_start h)
  rw [chunkBody_eq h, hcount]
  simp [startOfBody]

/-- Every body is split at the limit, by a loop that stops and skips nothing. -/
theorem chunk_body_splits (data : Bytes) :
    SplitsAtLimit data (chunkBody data) ∧ TakesEverySlice data := by
  constructor
  · by_cases hempty : data = []
    · subst hempty
      exact splitsAtLimit_empty
    · have hprogress := WhileLoop.run_invariant (fun _ => progress_step) (progress_start hempty)
      rw [chunkBody_eq hempty]
      exact splitsAtLimit_of_progress hprogress (run_stops data)
  · refine ⟨run_stops data, ?_, passes_counted⟩
    intro c hc
    exact slice_inBounds (offset_lt_of_mem_passes hc)

end ExtProc.Reply
