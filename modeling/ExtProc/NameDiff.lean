import ExtProc.Mutations

/-! The response header diff at the level of names. -/
namespace ExtProc

variable {K : Crates} {H H' headers : HeaderMap K} {resp resp' : Response K}
  {ctx : HttpFilterContext K} {n : K.HeaderName} {orig orig' : HashMap String String}
  {m : HeaderMutation}

theorem changedHeaders_of_perm (h : orig.entries.Perm orig'.entries) :
    changedHeaders orig headers = changedHeaders orig' headers := by
  simp only [changedHeaders, AList.perm_lookup h]

theorem mem_removedNames_of_perm (h : orig.entries.Perm orig'.entries) {k : String} :
    k ∈ removedNames orig headers ↔ k ∈ removedNames orig' headers := by
  have hkeys : k ∈ orig.keys ↔ k ∈ orig'.keys := AList.mem_of_perm h
  simp only [removedNames, List.mem_filter, hkeys]

theorem diff_eq_none_of_perm (hctx : ctx.responseHeader = some resp')
    (h : orig.entries.Perm orig'.entries)
    (hnone : collectResponseHeaderMutationsDiff ctx orig = none) :
    collectResponseHeaderMutationsDiff ctx orig' = none := by
  rw [diff_eq hctx] at hnone ⊢
  split at hnone
  · next hempty =>
    simp only [Bool.and_eq_true, List.isEmpty_iff] at hempty
    have hremoved : removedNames orig' resp'.headers = [] := by
      apply List.eq_nil_iff_forall_not_mem.mpr
      intro k hk
      simpa [hempty.2] using (mem_removedNames_of_perm h).mpr hk
    simp [← changedHeaders_of_perm h, hempty.1, hremoved]
  · cases hnone

theorem removedNames_nodup : (removedNames orig headers).Nodup := orig.keys_nodup.filter _

def settingKey (option : HeaderValueOption) : Option String := option.header.map HeaderValue.key

/-- The removals of a mutation, where each name has a cell. -/
def removeNames {σ : Type} (m : HeaderMutation) (empty : σ) (f : K.HeaderName → σ) :
    K.HeaderName → σ :=
  Patch.eraseAll (mutationPatch K m).remove empty f

/-- The settings of a mutation, by any way of writing a value to a cell. -/
def setValues {σ : Type} (m : HeaderMutation) (write : String → σ → σ) (f : K.HeaderName → σ) :
    K.HeaderName → σ :=
  Patch.writeAll write (mutationPatch K m).set f

/-- The removals are the names that are gone, the settings have names that are there, with all
values of the new ones. -/
structure ExactOnNames (K : Crates) (H H' : HeaderMap K) (m : HeaderMutation) : Prop where
  once : m.removeHeaders.Nodup
  removed : ∀ k, k ∈ m.removeHeaders ↔ ∃ n ∈ H.keys, n ∉ H'.keys ∧ k = K.asStr n
  added : ∀ n ∈ H'.keys, n ∉ H.keys →
    (m.setHeaders.filter fun option => settingKey option = some (K.asStr n)) =
      (H'.getAll n).map fun v => headerValueOption (K.asStr n) (textOf K v)
  named : ∀ option ∈ m.setHeaders,
    ∃ h ∈ H'.iter, option = headerValueOption (K.asStr h.1) (textOf K h.2)
  disjoint : ∀ option ∈ m.setHeaders, ∀ k ∈ m.removeHeaders, settingKey option ≠ some k
  commute : ∀ {σ : Type} (empty : σ) (write : String → σ → σ) (f : K.HeaderName → σ),
    setValues m write (removeNames m empty f) = removeNames m empty (setValues m write f)

theorem ExactOnNames.of_names (hK : K.Lawful) (once : m.removeHeaders.Nodup)
    (removed : ∀ k, k ∈ m.removeHeaders ↔ ∃ n ∈ H.keys, n ∉ H'.keys ∧ k = K.asStr n)
    (added : ∀ n ∈ H'.keys, n ∉ H.keys →
      (m.setHeaders.filter fun option => settingKey option = some (K.asStr n)) =
        (H'.getAll n).map fun v => headerValueOption (K.asStr n) (textOf K v))
    (named : ∀ option ∈ m.setHeaders,
      ∃ h ∈ H'.iter, option = headerValueOption (K.asStr h.1) (textOf K h.2)) :
    ExactOnNames K H H' m where
  once := once
  removed := removed
  added := added
  named := named
  disjoint := by
    intro option hoption k hk heq
    obtain ⟨h, hh, rfl⟩ := named option hoption
    obtain ⟨n, -, hgone, rfl⟩ := (removed k).mp hk
    have hn : h.1 = n := asStr_injective hK (Option.some.inj heq)
    exact hgone (hn ▸ Multimap.mem_keys.mpr ⟨h.2, hh⟩)
  commute := by
    intro σ empty write f
    apply Patch.writeAll_eraseAll
    intro b hb hgone
    obtain ⟨option, hoption, hset⟩ := List.mem_filterMap.mp hb
    obtain ⟨k, hk, hname⟩ := List.mem_filterMap.mp hgone
    obtain ⟨h, hh, rfl⟩ := named option hoption
    obtain ⟨n, -, hno, rfl⟩ := (removed k).mp hk
    simp only [hK.parseName_asStr, Option.some.injEq] at hname
    simp only [headerValueOption, hK.parseName_asStr, Option.bind_some, Option.map_some,
      Option.some.injEq] at hset
    subst hset
    exact hno (hname ▸ Multimap.mem_keys.mpr ⟨h.2, hh⟩)

theorem mem_keys_of_lastText {t : String} (h : lastText K headers n = some t) :
    n ∈ headers.keys := by
  apply Multimap.getAll_ne_nil.mp
  intro hnil
  simp [lastText, hnil] at h

/-- A name the snapshot lacks has all its values among the changed ones. -/
theorem changedHeaders_of_new (hK : K.Lawful) (hn : n ∉ resp.headers.keys) :
    (changedHeaders (captureOriginalHeaders resp) headers).filter (fun h => h.1 = n) =
      headers.iter.filter fun h => h.1 = n := by
  have hlast : lastText K resp.headers n = none := by
    cases ht : lastText K resp.headers n with
    | none => rfl
    | some t => exact (hn (mem_keys_of_lastText ht)).elim
  rw [changedHeaders, List.filter_filter]
  apply List.filter_congr
  intro h _
  by_cases hname : h.1 = n
  · subst hname
    simp [lookup_captureOriginalHeaders hK, hlast]
  · simp [hname]

theorem settings_of_new (hK : K.Lawful) (hn : n ∉ resp.headers.keys) :
    (((changedHeaders (captureOriginalHeaders resp) headers).map fun h =>
        headerValueOption (K.asStr h.1) (textOf K h.2)).filter fun option =>
          settingKey option = some (K.asStr n)) =
      (headers.getAll n).map fun v => headerValueOption (K.asStr n) (textOf K v) := by
  have hkey : ∀ h : K.HeaderName × K.HeaderValue,
      settingKey (headerValueOption (K.asStr h.1) (textOf K h.2)) = some (K.asStr n) ↔
        h.1 = n := by
    intro h
    simp [settingKey, headerValueOption, (asStr_injective hK).eq_iff]
  rw [List.filter_map]
  simp only [Function.comp_def, hkey]
  rw [changedHeaders_of_new hK hn, Multimap.getAll, List.map_map]
  apply List.map_congr_left
  intro h hh
  have hname : h.1 = n := by simpa using (List.mem_filter.mp hh).2
  simp [hname]

theorem keys_of_diff_eq_none (hK : K.Lawful) (hctx : ctx.responseHeader = some resp')
    (hnone : collectResponseHeaderMutationsDiff ctx (captureOriginalHeaders resp) = none) :
    n ∈ resp.headers.keys ↔ n ∈ resp'.headers.keys := by
  obtain ⟨hkept, hread⟩ := (diff_eq_none_iff hK hctx).mp hnone
  constructor
  · exact hkept n
  · intro hn
    obtain ⟨v, hv⟩ := Multimap.mem_keys.mp hn
    exact mem_keys_of_lastText (hread n v (Multimap.mem_getAll.mpr hv))

/-- Whatever order the hash map of the snapshot iterates in, a diff is exact on the names, and no
diff says that the names are the same. -/
theorem diff_exact_on_names (hK : K.Lawful) (hctx : ctx.responseHeader = some resp')
    (horig : orig.entries.Perm (captureOriginalHeaders resp).entries) :
    (∀ m, collectResponseHeaderMutationsDiff ctx orig = some m →
      ExactOnNames K resp.headers resp'.headers m) ∧
    (collectResponseHeaderMutationsDiff ctx orig = none →
      ∀ n, n ∈ resp.headers.keys ↔ n ∈ resp'.headers.keys) := by
  have hchanged : changedHeaders orig resp'.headers =
      changedHeaders (captureOriginalHeaders resp) resp'.headers := changedHeaders_of_perm horig
  constructor
  · intro m hm
    rw [diff_eq hctx, hchanged] at hm
    split at hm
    · cases hm
    · cases hm
      apply ExactOnNames.of_names hK removedNames_nodup
      · intro k
        exact (mem_removedNames_of_perm horig).trans (mem_removedNames hK)
      · intro n _ hn
        exact settings_of_new hK hn
      · intro option hoption
        obtain ⟨h, hh, rfl⟩ := List.mem_map.mp hoption
        exact ⟨h, (List.mem_filter.mp hh).1, rfl⟩
  · intro hnone n
    exact keys_of_diff_eq_none hK hctx (diff_eq_none_of_perm hctx horig hnone)

section Rewritten

/-- Filters drop a repeated cookie and add two values, one of them no text. -/
def rewritten : Response httpCrates :=
  envoyHeadersToResponse httpCrates [⟨"x-a", "1", []⟩, ⟨"X-A", "é", []⟩]

theorem rewritten_diff :
    ExactOnNames httpCrates (cookieResponse ["a=1", "b=2"]).headers rewritten.headers
      ⟨[headerValueOption "x-a" "1", headerValueOption "x-a" ""], ["set-cookie"]⟩ := by
  have hctx : (holding rewritten).responseHeader = some rewritten := rfl
  exact (diff_exact_on_names httpCrates_lawful hctx (List.Perm.refl _)).1 _ (by decide)

end Rewritten

end ExtProc
