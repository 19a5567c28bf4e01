import HanaInsights.Keyed
set_option autoImplicit false

namespace HanaInsights.Keyed

variable {α : Type}

theorem lookup_eq_none_of_lt {key : String} {es : List (String × α)}
    (h : ∀ e ∈ es, key < e.1) : lookup key es = none := by
  induction es with
  | nil => rfl
  | cons e rest ih =>
    obtain ⟨k, v⟩ := e
    have hlt : key < k := h (k, v) List.mem_cons_self
    have hne : k ≠ key := fun he => String.lt_irrefl key (he ▸ hlt)
    rw [lookup, if_neg hne]
    exact ih fun e he => h e (List.mem_cons_of_mem _ he)

/-- Only the order lets an update stop at the first larger key. -/
theorem lookup_updateEntries {key other : String} {f : Option α → α} {es : List (String × α)}
    (h : es.Pairwise fun a b => a.1 < b.1) :
    lookup other (updateEntries key f es) =
      if key = other then some (f (lookup key es)) else lookup other es := by
  induction es with
  | nil => by_cases ho : key = other <;> simp [updateEntries, lookup, ho]
  | cons e rest ih =>
    obtain ⟨k, v⟩ := e
    rw [List.pairwise_cons] at h
    by_cases hlt : key < k
    · have hnone : lookup key ((k, v) :: rest) = none := by
        apply lookup_eq_none_of_lt
        intro e he
        rcases List.mem_cons.1 he with rfl | he
        · exact hlt
        · exact String.lt_trans hlt (h.1 e he)
      rw [updateEntries, if_pos hlt, hnone]
      rfl
    · by_cases hk : key = k
      · subst hk
        rw [updateEntries, if_neg hlt, if_pos rfl]
        by_cases ho : key = other <;> simp [lookup, ho]
      · have hk' : k ≠ key := Ne.symm hk
        have hi := ih h.2
        by_cases ho : key = other
        · subst ho
          simp [updateEntries, lookup, hlt, hk, hk', hi]
        · simp [updateEntries, lookup, hlt, hk, hi, ho]

theorem get?_update (m : Keyed α) (key other : String) (f : Option α → α) :
    (m.update key f).get? other = if key = other then some (f (m.get? key)) else m.get? other :=
  lookup_updateEntries m.sorted

theorem lookup_eq_some_iff {key : String} {value : α} {es : List (String × α)}
    (h : es.Pairwise fun a b => a.1 < b.1) : lookup key es = some value ↔ (key, value) ∈ es := by
  induction es with
  | nil => simp [lookup]
  | cons e rest ih =>
    obtain ⟨k, v⟩ := e
    rw [List.pairwise_cons] at h
    rw [lookup, List.mem_cons]
    by_cases hk : k = key
    · subst hk
      have hrest : (k, value) ∉ rest := fun hmem => String.lt_irrefl k (h.1 _ hmem)
      simp [hrest, eq_comm]
    · have hne : (key, value) ≠ (k, v) := fun he => hk (congrArg Prod.fst he).symm
      rw [if_neg hk, ih h.2]
      simp [hne]

theorem get?_eq_some_iff {m : Keyed α} {key : String} {value : α} :
    m.get? key = some value ↔ (key, value) ∈ m.entries :=
  lookup_eq_some_iff m.sorted

theorem mem_keys_iff {m : Keyed α} {key : String} : key ∈ m.keys ↔ m.get? key ≠ none := by
  rw [keys, List.mem_map, Option.ne_none_iff_exists']
  constructor
  · rintro ⟨⟨k, v⟩, he, rfl⟩
    exact ⟨v, get?_eq_some_iff.2 he⟩
  · rintro ⟨v, hv⟩
    exact ⟨(key, v), get?_eq_some_iff.1 hv, rfl⟩

theorem nodup_entries (m : Keyed α) : m.entries.Nodup :=
  m.sorted.imp fun {a b} hlt (he : a = b) => String.lt_irrefl b.1 (he ▸ hlt)

theorem ext_get? {m m' : Keyed α} (h : ∀ key, m.get? key = m'.get? key) : m = m' := by
  have hmem : ∀ e, e ∈ m.entries ↔ e ∈ m'.entries := by
    rintro ⟨key, value⟩
    rw [← get?_eq_some_iff, ← get?_eq_some_iff, h]
  have hperm : m.entries.Perm m'.entries :=
    (List.perm_ext_iff_of_nodup m.nodup_entries m'.nodup_entries).2 hmem
  have hentries : m.entries = m'.entries :=
    hperm.eq_of_pairwise (fun _ _ _ _ hab hba => absurd hba (String.lt_asymm hab))
      m.sorted m'.sorted
  obtain ⟨entries, sorted⟩ := m
  obtain ⟨entries', sorted'⟩ := m'
  obtain rfl : entries = entries' := hentries
  rfl

theorem nodup_keys (m : Keyed α) : m.keys.Nodup :=
  List.pairwise_map.2 (m.sorted.imp fun {a b} hlt (he : a.1 = b.1) =>
    String.lt_irrefl b.1 (he ▸ hlt))

theorem size_eq_of_keys {m m' : Keyed α} (h : ∀ key, m.get? key = none ↔ m'.get? key = none) :
    m.size = m'.size := by
  have hkeys : m.keys.Perm m'.keys := by
    refine (List.perm_ext_iff_of_nodup m.nodup_keys m'.nodup_keys).2 fun key => ?_
    rw [mem_keys_iff, mem_keys_iff, ne_eq, ne_eq, h]
  have hlength := hkeys.length_eq
  simpa [keys, size] using hlength

theorem get?_insert (m : Keyed α) (key other : String) (value : α) :
    (m.insert key value).get? other = if key = other then some value else m.get? other :=
  get?_update m key other _

theorem get?_foldl_insert {pairs : List (String × α)} (h : (pairs.map (·.1)).Nodup)
    (m : Keyed α) {key : String} {value : α} :
    (pairs.foldl (fun m p => m.insert p.1 p.2) m).get? key = some value ↔
      (key, value) ∈ pairs ∨ key ∉ pairs.map (·.1) ∧ m.get? key = some value := by
  induction pairs generalizing m with
  | nil => simp
  | cons p rest ih =>
    obtain ⟨k, v⟩ := p
    rw [List.map_cons, List.nodup_cons] at h
    rw [List.foldl_cons, ih h.2, get?_insert, List.map_cons, List.mem_cons, List.mem_cons]
    by_cases hk : k = key
    · subst hk
      have hrest : (k, value) ∉ rest := fun hmem =>
        h.1 (List.mem_map.2 ⟨(k, value), hmem, rfl⟩)
      simp [hrest, h.1, eq_comm]
    · simp [hk, Ne.symm hk]

theorem get?_ofList {pairs : List (String × α)} (h : (pairs.map (·.1)).Nodup) {key : String}
    {value : α} : (ofList pairs).get? key = some value ↔ (key, value) ∈ pairs := by
  rw [ofList, get?_foldl_insert h]
  simp [empty, get?, lookup]

theorem ofList_perm {pairs pairs' : List (String × α)} (h : pairs.Perm pairs')
    (hkeys : (pairs.map (·.1)).Nodup) : ofList pairs' = ofList pairs := by
  have hkeys' : (pairs'.map (·.1)).Nodup := (h.map _).nodup_iff.1 hkeys
  apply ext_get?
  intro key
  apply Option.ext
  intro value
  rw [get?_ofList hkeys, get?_ofList hkeys', h.mem_iff]

theorem ofList_entries (m : Keyed α) : ofList m.entries = m := by
  apply ext_get?
  intro key
  apply Option.ext
  intro value
  rw [get?_ofList m.nodup_keys, get?_eq_some_iff]

theorem entries_insert (m : Keyed α) (key : String) (value : α) :
    (m.insert key value).entries = updateEntries key (fun _ => value) m.entries := rfl

theorem updateEntries_map {β : Type} (g : α → β) (key : String) (value : α)
    (es : List (String × α)) :
    updateEntries key (fun _ => g value) (es.map fun e => (e.1, g e.2)) =
      (updateEntries key (fun _ => value) es).map fun e => (e.1, g e.2) := by
  induction es with
  | nil => rfl
  | cons e rest ih =>
    simp only [List.map_cons, updateEntries]
    by_cases hlt : key < e.1
    · simp [hlt]
    · by_cases hk : key = e.1
      · simp [hk]
      · simp [hlt, hk, ih]

theorem entries_ofList_map {β : Type} (g : α → β) (pairs : List (String × α)) :
    (ofList (pairs.map fun p => (p.1, g p.2))).entries =
      (ofList pairs).entries.map fun e => (e.1, g e.2) := by
  have hfoldl : ∀ (m : Keyed α) (m' : Keyed β),
      m'.entries = m.entries.map (fun e => (e.1, g e.2)) →
      ((pairs.map fun p => (p.1, g p.2)).foldl (fun m p => m.insert p.1 p.2) m').entries =
        (pairs.foldl (fun m p => m.insert p.1 p.2) m).entries.map fun e => (e.1, g e.2) := by
    induction pairs with
    | nil => exact fun _ _ h => h
    | cons p rest ih =>
      intro m m' h
      refine ih (m.insert p.1 p.2) (m'.insert p.1 (g p.2)) ?_
      rw [entries_insert, entries_insert, h, updateEntries_map]
  exact hfoldl empty empty rfl

end HanaInsights.Keyed
