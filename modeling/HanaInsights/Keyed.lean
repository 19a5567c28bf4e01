set_option autoImplicit false

/-!
Values under text keys, held in the order of the keys. Code points order texts as their UTF-8 bytes
do. Two maps with the same values under the same keys are the same map.
-/

namespace HanaInsights

structure Keyed (α : Type) where
  entries : List (String × α)
  sorted : entries.Pairwise fun a b => a.1 < b.1
  deriving DecidableEq

namespace Keyed

variable {α : Type}

def empty : Keyed α := ⟨[], .nil⟩

instance : Inhabited (Keyed α) := ⟨empty⟩

def updateEntries (key : String) (f : Option α → α) : List (String × α) → List (String × α)
  | [] => [(key, f none)]
  | (k, v) :: rest =>
    if key < k then (key, f none) :: (k, v) :: rest
    else if key = k then (k, f (some v)) :: rest
    else (k, v) :: updateEntries key f rest

theorem mem_updateEntries {key : String} {f : Option α → α} {es : List (String × α)}
    {e : String × α} (h : e ∈ updateEntries key f es) : e.1 = key ∨ ∃ v, (e.1, v) ∈ es := by
  induction es with
  | nil => simp [updateEntries] at h; simp [h]
  | cons x rest ih =>
    obtain ⟨k, v⟩ := x
    simp only [updateEntries] at h
    split at h
    · rcases List.mem_cons.1 h with rfl | h
      · exact .inl rfl
      · exact .inr ⟨e.2, h⟩
    · split at h
      · rcases List.mem_cons.1 h with rfl | h
        · exact .inl (by simp_all)
        · exact .inr ⟨e.2, List.mem_cons_of_mem _ h⟩
      · rcases List.mem_cons.1 h with rfl | h
        · exact .inr ⟨v, List.mem_cons_self⟩
        · rcases ih h with h | ⟨w, h⟩
          · exact .inl h
          · exact .inr ⟨w, List.mem_cons_of_mem _ h⟩

theorem sorted_updateEntries {key : String} {f : Option α → α} {es : List (String × α)}
    (h : es.Pairwise fun a b => a.1 < b.1) :
    (updateEntries key f es).Pairwise fun a b => a.1 < b.1 := by
  induction es with
  | nil => simp [updateEntries]
  | cons x rest ih =>
    obtain ⟨k, v⟩ := x
    rw [List.pairwise_cons] at h
    simp only [updateEntries]
    split
    next hlt =>
      refine List.pairwise_cons.2 ⟨fun e he => ?_, List.pairwise_cons.2 h⟩
      rcases List.mem_cons.1 he with rfl | he
      · exact hlt
      · exact String.lt_trans hlt (h.1 e he)
    next hlt =>
      split
      next => exact List.pairwise_cons.2 ⟨h.1, h.2⟩
      next hne =>
        refine List.pairwise_cons.2 ⟨fun e he => ?_, ih h.2⟩
        rcases mem_updateEntries he with he | ⟨w, he⟩
        · rw [he]
          rcases String.le_total k key with hle | hle
          · exact Std.lt_of_le_of_ne hle (Ne.symm hne)
          · exact absurd (Std.lt_of_le_of_ne hle hne) hlt
        · exact h.1 (e.1, w) he

def update (m : Keyed α) (key : String) (f : Option α → α) : Keyed α :=
  ⟨updateEntries key f m.entries, sorted_updateEntries m.sorted⟩

def insert (m : Keyed α) (key : String) (value : α) : Keyed α := m.update key fun _ => value

/-- Of several values given for one key the last one stays. -/
def ofList (pairs : List (String × α)) : Keyed α :=
  pairs.foldl (fun m p => m.insert p.1 p.2) empty

def lookup (key : String) : List (String × α) → Option α
  | [] => none
  | (k, v) :: rest => if k = key then some v else lookup key rest

def get? (m : Keyed α) (key : String) : Option α := lookup key m.entries

def contains (m : Keyed α) (key : String) : Bool := (m.get? key).isSome

def keys (m : Keyed α) : List String := m.entries.map (·.1)

def values (m : Keyed α) : List α := m.entries.map (·.2)

def size (m : Keyed α) : Nat := m.entries.length

end Keyed
end HanaInsights
