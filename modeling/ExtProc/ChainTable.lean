import ExtProc.Config

/-! The names of a configuration that validates lead to the chains themselves. -/
namespace ExtProc

open Keyed (FirstRepeat collect)

variable {FilterEntry : Type} {chains before : List (FilterChainConfig FilterEntry)}
  {chain : FilterChainConfig FilterEntry}

def chainNames (chains : List (FilterChainConfig FilterEntry)) : List String :=
  chains.map FilterChainConfig.name

def duplicateName (chain : FilterChainConfig FilterEntry) : Error :=
  .config ("duplicate filter chain name: " ++ chain.name)

/-- The table with the chains under their names. -/
def chainTable (chains : List (FilterChainConfig FilterEntry)) :
    HashMap String (List FilterEntry) :=
  collect (chains.map fun c => (c.name, c.filters))

/-- Behind the validation, the builder gets these entries and this table, whatever it does with
them. -/
def BuildsFrom (chains : List (FilterChainConfig FilterEntry)) (entries : List FilterEntry)
    (table : HashMap String (List FilterEntry)) : Prop :=
  ∀ (P : PipelineCrates FilterEntry) (options : P.InsecureOptions) (registry : P.FilterRegistry),
    buildPipeline P { filterChains := chains, insecureOptions := options } registry = do
      let pipeline ← (P.buildWithChains entries registry table).mapError .pipeline
      let limited ← (P.applyBodyLimits pipeline none none
        (P.allowUnboundedBody options)).mapError .pipeline
      return P.applyInsecureOptions limited options

/-- One entry for each chain, under its name, and all filters in the order of the chains. -/
structure Unambiguous (chains : List (FilterChainConfig FilterEntry))
    (entries : List FilterEntry) (table : HashMap String (List FilterEntry)) : Prop where
  oneEach : table.keys.Perm (chainNames chains)
  own : ∀ c ∈ chains, table.lookup c.name = some c.filters
  flat : entries = (chains.map FilterChainConfig.filters).flatten
  placed : ∀ before c after, chains = before ++ c :: after →
    entries = (before.map FilterChainConfig.filters).flatten ++ c.filters ++
      (after.map FilterChainConfig.filters).flatten

/-- Repeated names are reported, and a configuration without any builds from its own chains. -/
structure Validates (chains : List (FilterChainConfig FilterEntry)) : Prop where
  fails_iff : (∃ e, validateChainNames chains = .error e) ↔
    ∃ (i j : Nat) (c d : FilterChainConfig FilterEntry),
      i ≠ j ∧ chains[i]? = some c ∧ chains[j]? = some d ∧ c.name = d.name
  reports : ∀ e, validateChainNames chains = .error e ↔
    ∃ c, FirstRepeat FilterChainConfig.name chains c ∧ e = duplicateName c
  refuses : ∀ e, validateChainNames chains = .error e →
    ∀ (P : PipelineCrates FilterEntry) (options : P.InsecureOptions) (registry : P.FilterRegistry),
      buildPipeline P { filterChains := chains, insecureOptions := options } registry = .error e
  builds : validateChainNames chains = .ok () →
    ∃ entries table, Unambiguous chains entries table ∧ BuildsFrom chains entries table

/-- The loop passes chains with new names and remembers these. -/
theorem validateFrom_append (seen : Finset String) (after : List (FilterChainConfig FilterEntry))
    (hn : (chainNames before).Nodup) (hnew : ∀ c ∈ before, c.name ∉ seen) :
    validateFrom seen (before ++ after) =
      validateFrom (seen ∪ (chainNames before).toFinset) after := by
  induction before generalizing seen with
  | nil => simp [chainNames]
  | cons c before ih =>
    have hc : c.name ∉ seen := hnew c List.mem_cons_self
    have hn' : c.name ∉ chainNames before ∧ (chainNames before).Nodup := List.nodup_cons.mp hn
    have hrest : ∀ d ∈ before, d.name ∉ insert c.name seen := by
      intro d hd
      have hold := hnew d (List.mem_cons_of_mem c hd)
      have hne : d.name ≠ c.name := by
        intro he
        exact hn'.1 (List.mem_map.mpr ⟨d, hd, he⟩)
      simp [hne, hold]
    have hseen : insert c.name seen ∪ (chainNames before).toFinset =
        seen ∪ (chainNames (c :: before)).toFinset := by
      ext s
      simp [chainNames]
    rw [List.cons_append, validateFrom, if_neg hc, ih (insert c.name seen) hn'.2 hrest, hseen]

theorem validate_of_nodup (hn : (chainNames chains).Nodup) : validateChainNames chains = .ok () := by
  have hall := validateFrom_append ∅ [] hn (by simp)
  rw [List.append_nil] at hall
  rw [validateChainNames, hall, validateFrom]

theorem validate_of_firstRepeat (h : FirstRepeat FilterChainConfig.name chains chain) :
    validateChainNames chains = .error (duplicateName chain) := by
  obtain ⟨before, after, hsplit, hn, hkey⟩ := h
  have hpass := validateFrom_append ∅ (chain :: after) hn (by simp)
  have hseen : chain.name ∈ ∅ ∪ (chainNames before).toFinset := by simpa [chainNames] using hkey
  rw [validateChainNames, hsplit, hpass, validateFrom, if_pos hseen, duplicateName]

theorem validate_error_iff {e : Error} : validateChainNames chains = .error e ↔
    ∃ c, FirstRepeat FilterChainConfig.name chains c ∧ e = duplicateName c := by
  constructor
  · intro h
    by_cases hn : (chainNames chains).Nodup
    · rw [validate_of_nodup hn] at h
      cases h
    · obtain ⟨c, hc⟩ := Keyed.exists_firstRepeat hn
      rw [validate_of_firstRepeat hc] at h
      cases h
      exact ⟨c, hc, rfl⟩
  · intro h
    obtain ⟨c, hc, rfl⟩ := h
    exact validate_of_firstRepeat hc

theorem validate_fails_iff : (∃ e, validateChainNames chains = .error e) ↔
    ¬ (chainNames chains).Nodup := by
  constructor
  · intro h
    obtain ⟨e, he⟩ := h
    obtain ⟨c, hc, -⟩ := validate_error_iff.mp he
    exact hc.not_nodup
  · intro h
    obtain ⟨c, hc⟩ := Keyed.exists_firstRepeat h
    exact ⟨duplicateName c, validate_of_firstRepeat hc⟩

theorem unambiguous_of_nodup (hn : (chainNames chains).Nodup) :
    Unambiguous chains (flattenChains chains) (chainTable chains) := by
  have hkeys : (chains.map fun c => (c.name, c.filters)).map Prod.fst = chainNames chains := by
    rw [List.map_map]
    rfl
  refine ⟨?_, ?_, rfl, ?_⟩
  · rw [← hkeys] at hn ⊢
    exact Keyed.keys_collect_perm hn
  · intro c hc
    rw [← hkeys] at hn
    exact Keyed.lookup_collect hn (List.mem_map.mpr ⟨c, hc, rfl⟩)
  · intro before c after hsplit
    rw [hsplit, flattenChains, List.flatMap_append, List.flatMap_cons, List.append_assoc]
    rfl

theorem buildsFrom_of_validates (h : validateChainNames chains = .ok ()) :
    BuildsFrom chains (flattenChains chains) (chainTable chains) := by
  intro P options registry
  rw [buildPipeline, h]
  rfl

/-- Validation makes the names of a configuration unambiguous. -/
theorem chain_table_unambiguous (chains : List (FilterChainConfig FilterEntry)) :
    Validates chains := by
  refine ⟨?_, ?_, ?_, ?_⟩
  · exact validate_fails_iff.trans Keyed.not_nodup_iff_positions
  · intro e
    exact validate_error_iff
  · intro e he P options registry
    rw [buildPipeline, he]
    rfl
  · intro h
    have hn : (chainNames chains).Nodup := by
      by_contra hrepeats
      obtain ⟨e, he⟩ := validate_fails_iff.mpr hrepeats
      rw [h] at he
      cases he
    exact ⟨flattenChains chains, chainTable chains, unambiguous_of_nodup hn,
      buildsFrom_of_validates h⟩

end ExtProc
