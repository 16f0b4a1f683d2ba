import Mathlib.Data.List.AList

/-- A hash table that owns its values: distinct keys, listed in the order in
which a traversal of the table visits them. -/
abbrev HashTable (K V : Type) := AList fun _ : K => V

namespace HashTable

variable {K V : Type}

/-- The stored values in traversal order. -/
def values (table : HashTable K V) : List V := table.entries.map Sigma.snd

/-- Rewrites every stored value in place. Keys and traversal order stay. -/
def mapEntries (f : K → V → V) (table : HashTable K V) : HashTable K V where
  entries := table.entries.map fun entry => ⟨entry.1, f entry.1 entry.2⟩
  nodupKeys := by
    have hkeys : (table.entries.map fun entry => (⟨entry.1, f entry.1 entry.2⟩ : Sigma fun _ : K => V)).keys =
        table.entries.keys := by
      simp [List.keys, List.map_map, Function.comp_def]
    unfold List.NodupKeys
    rw [hkeys]
    exact table.nodupKeys

@[simp] theorem keys_mapEntries (f : K → V → V) (table : HashTable K V) :
    (mapEntries f table).keys = table.keys := by
  simp [AList.keys, mapEntries, List.keys, Function.comp_def]

@[simp] theorem mem_mapEntries {f : K → V → V} {table : HashTable K V} {key : K} :
    key ∈ mapEntries f table ↔ key ∈ table := by
  simp [AList.mem_keys]

/-- Two in-place rewritings in a row are a single one. -/
theorem mapEntries_mapEntries (f g : K → V → V) (table : HashTable K V) :
    mapEntries g (mapEntries f table) = mapEntries (fun key value => g key (f key value)) table := by
  apply AList.ext
  simp [mapEntries, List.map_map, Function.comp_def]

/-- Only what a function makes of the keys that are there matters. -/
theorem mapEntries_congr {f g : K → V → V} {table : HashTable K V}
    (hagree : ∀ key ∈ table.keys, ∀ value, f key value = g key value) :
    mapEntries f table = mapEntries g table := by
  apply AList.ext
  apply List.map_congr_left
  intro entry hentry
  rw [hagree entry.1 (List.mem_map.mpr ⟨entry, hentry, rfl⟩)]

section Lookup

variable [DecidableEq K]

/-- Mutation through a pointer obtained from a lookup: the value under one key
changes in place and an absent key changes nothing. -/
def adjust (key : K) (f : V → V) (table : HashTable K V) : HashTable K V :=
  mapEntries (fun other value => if other = key then f value else value) table

@[simp] theorem lookup_mapEntries (f : K → V → V) (table : HashTable K V) (key : K) :
    (mapEntries f table).lookup key = (table.lookup key).map (f key) := by
  obtain ⟨entries, hnodup⟩ := table
  simp only [AList.lookup, mapEntries]
  induction entries with
  | nil => rfl
  | cons entry entries ih =>
    obtain ⟨other, value⟩ := entry
    by_cases heq : key = other
    · subst other
      simp
    · rw [List.map_cons, List.dlookup_cons_ne, List.dlookup_cons_ne]
      · exact ih (List.nodupKeys_cons.mp hnodup).2
      · exact heq
      · exact heq

@[simp] theorem mem_adjust {key other : K} {f : V → V} {table : HashTable K V} :
    other ∈ adjust key f table ↔ other ∈ table := mem_mapEntries

/-- An adjustment changes the value of one key. -/
theorem lookup_adjust (key other : K) (f : V → V) (table : HashTable K V) :
    (adjust key f table).lookup other =
      (table.lookup other).map (fun value => if other = key then f value else value) :=
  lookup_mapEntries _ table other

@[simp] theorem lookup_adjust_self (key : K) (f : V → V) (table : HashTable K V) :
    (adjust key f table).lookup key = (table.lookup key).map f := by
  simp [lookup_adjust]

@[simp] theorem lookup_adjust_ne {key other : K} (f : V → V) (table : HashTable K V) (hne : other ≠ key) :
    (adjust key f table).lookup other = table.lookup other := by
  simp [lookup_adjust, hne]

/-- There is nothing to adjust where the key is missing. -/
theorem adjust_of_notMem {key : K} (f : V → V) {table : HashTable K V} (habsent : key ∉ table) :
    adjust key f table = table := by
  apply AList.ext
  simp only [adjust, mapEntries]
  conv => rhs; rw [← List.map_id table.entries]
  apply List.map_congr_left
  intro entry hentry
  have hne : entry.1 ≠ key := by
    rintro rfl
    exact habsent (AList.mem_keys.mpr (List.mem_map.mpr ⟨entry, hentry, rfl⟩))
  simp [hne]

theorem entries_erase (key : K) (table : HashTable K V) : (table.erase key).entries = table.entries.kerase key := rfl

/-- A value changed right after its insertion could have been inserted changed. -/
theorem adjust_insert_self (key : K) (value : V) (f : V → V) (table : HashTable K V) :
    adjust key f (table.insert key value) = table.insert key (f value) := by
  have habsent : key ∉ table.erase key := by simp [AList.mem_erase]
  have hrest := adjust_of_notMem f habsent
  have hentries := congrArg AList.entries hrest
  apply AList.ext
  simp only [adjust, mapEntries, AList.entries_insert] at hentries ⊢
  simpa [entries_erase] using hentries

/-- An insertion sets the value of one key. -/
theorem lookup_insert_eq (key other : K) (value : V) (table : HashTable K V) :
    (table.insert key value).lookup other = if other = key then some value else table.lookup other := by
  by_cases heq : other = key
  · subst heq
    simp
  · rw [if_neg heq, AList.lookup_insert_ne heq]

/-- An erasure takes the value of one key. -/
theorem lookup_erase_eq (key other : K) (table : HashTable K V) :
    (table.erase key).lookup other = if other = key then none else table.lookup other := by
  by_cases heq : other = key
  · subst heq
    simp
  · rw [if_neg heq, AList.lookup_erase_ne heq]

/-- The values are what the keys find. -/
theorem mem_values_iff {table : HashTable K V} {value : V} :
    value ∈ values table ↔ ∃ key, table.lookup key = some value := by
  constructor
  · intro hmem
    obtain ⟨⟨key, stored⟩, hentry, rfl⟩ := List.mem_map.mp hmem
    exact ⟨key, AList.mem_lookup_iff.mpr hentry⟩
  · rintro ⟨key, hlookup⟩
    exact List.mem_map.mpr ⟨⟨key, value⟩, AList.mem_lookup_iff.mp hlookup, rfl⟩

/-- What is done with every value can be done key by key. -/
theorem mapM_values {W : Type} (f : V → Option W) (table : HashTable K V) :
    (values table).mapM f = table.keys.mapM fun key => (table.lookup key).bind f := by
  have hlookup : ∀ entry ∈ table.entries, table.lookup entry.1 = some entry.2 := fun entry hentry =>
    AList.mem_lookup_iff.mpr hentry
  simp only [values, AList.keys, List.keys, List.mapM_map]
  generalize table.entries = entries at hlookup
  induction entries with
  | nil => rfl
  | cons entry rest ih =>
    obtain ⟨hfirst, hothers⟩ := List.forall_mem_cons.mp hlookup
    simp only [List.mapM_cons, ih hothers, Function.comp_apply, hfirst, Option.bind_some]

/-- Erasing a key is invisible to a traversal that skips the value under it. -/
theorem filter_values_erase {key : K} {keep : V → Bool} (table : HashTable K V)
    (hskip : ∀ value, table.lookup key = some value → keep value = false) :
    (values (table.erase key)).filter keep = (values table).filter keep := by
  have hentry : ∀ entry ∈ table.entries, entry.1 = key → keep entry.2 = false := by
    rintro ⟨other, value⟩ hmem rfl
    exact hskip value (AList.mem_lookup_iff.mpr hmem)
  simp only [values, entries_erase]
  generalize table.entries = entries at hentry
  induction entries with
  | nil => rfl
  | cons entry rest ih =>
    by_cases heq : key = entry.1
    · rw [List.kerase_cons_eq heq, List.map_cons,
        List.filter_cons_of_neg (by simp [hentry entry List.mem_cons_self heq.symm])]
    · rw [List.kerase_cons_ne heq, List.map_cons, List.map_cons, List.filter_cons, List.filter_cons,
        ih fun other hother => hentry other (List.mem_cons_of_mem entry hother)]

theorem mem_of_lookup {table : HashTable K V} {key : K} {value : V}
    (hlookup : table.lookup key = some value) : key ∈ table :=
  AList.lookup_isSome.mp (by simp [hlookup])

/-- A key that is there has a value. -/
theorem exists_lookup_of_mem {table : HashTable K V} {key : K} (hmem : key ∈ table) :
    ∃ value, table.lookup key = some value :=
  Option.isSome_iff_exists.mp (AList.lookup_isSome.mpr hmem)

/-- Visiting keys one by one, each visit rewriting the entry under its key,
rewrites exactly the visited entries. -/
theorem foldl_adjust (f : V → V) (visited : List K) (hnodup : visited.Nodup) (table : HashTable K V) :
    visited.foldl (fun current key => adjust key f current) table =
      mapEntries (fun key value => if key ∈ visited then f value else value) table := by
  induction visited generalizing table with
  | nil => exact AList.ext (by simp [mapEntries])
  | cons key rest ih =>
    obtain ⟨hfresh, hrest⟩ := List.nodup_cons.mp hnodup
    rw [List.foldl_cons, ih hrest, adjust, mapEntries_mapEntries]
    apply mapEntries_congr
    intro other _ value
    by_cases heq : other = key
    · subst other
      simp [hfresh]
    · simp [heq]

/-- A complete traversal that rewrites each entry it visits. -/
theorem foldl_adjust_keys (f : V → V) (table : HashTable K V) :
    table.keys.foldl (fun current key => adjust key f current) table = mapEntries (fun _ => f) table := by
  rw [foldl_adjust f table.keys table.keys_nodup]
  exact mapEntries_congr fun key hkey value => by simp [hkey]

end Lookup

end HashTable
