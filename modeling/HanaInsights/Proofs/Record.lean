import Mathlib.Data.List.Forall2
import Mathlib.Data.List.Perm.Basic
import HanaInsights.Json.Record
set_option autoImplicit false

namespace HanaInsights.Json

variable {α : Type}

/-- A value that may be missing and is not repeated. -/
def sole : List Json → Option (Option Json)
  | [] => some none
  | [v] => some (some v)
  | _ => none

theorem sole_perm {xs ys : List Json} (h : xs.Perm ys) : sole xs = sole ys := by
  match xs with
  | [] => rw [h.nil_eq]
  | [x] => rw [List.singleton_perm.1 h]
  | _ :: _ :: _ =>
    match ys, h.length_eq with
    | _ :: _ :: _, _ => rfl

/-- What members say about a field that goes by the given names. -/
def given? (names : List String) (members : List (String × Json)) : Option (Option Json) :=
  sole ((members.filter fun m => names.contains m.1).map (·.2))

theorem given?_singleton (name : String) (members : List (String × Json)) :
    given? [name] members = sole ((members.filter fun m => m.1 == name).map (·.2)) := by
  simp only [given?, List.contains_cons, List.contains_nil, Bool.or_false]

theorem fields?_object (s : Source) (names : List String) (members : List (String × Json)) :
    fields? s names (.object members) = names.mapM fun name => given? [name] members := by
  rw [fields?]
  congr 1
  funext name
  rw [given?_singleton]
  generalize members.filter (fun m => m.1 == name) = found
  match found with
  | [] => rfl
  | [m] => rfl
  | _ :: _ :: _ => rfl

section
variable {names : List String} {name : String} {members others : List (String × Json)}

theorem given?_perm (h : members.Perm others) : given? names members = given? names others :=
  sole_perm ((h.filter _).map _)

theorem given?_absent (h : ∀ m ∈ members, m.1 ∉ names) : given? names members = some none := by
  have hfilter : (members.filter fun m => names.contains m.1) = [] := by
    simpa using h
  rw [given?, hfilter]
  rfl

theorem given?_cons_self (hname : name ∈ names) (h : ∀ m ∈ members, m.1 ∉ names) (v : Json) :
    given? names ((name, v) :: members) = some (some v) := by
  have hfilter : (members.filter fun m => names.contains m.1) = [] := by
    simpa using h
  rw [given?, List.filter_cons_of_pos (by simpa using hname), hfilter]
  rfl

theorem given?_cons_other (hname : name ∉ names) (v : Json) :
    given? names ((name, v) :: members) = given? names members := by
  rw [given?, List.filter_cons_of_neg (by simpa using hname), given?]

theorem given?_map_values (f : String → Json → Json) :
    given? [name] (members.map fun m => (m.1, f m.1 m.2)) =
      (given? [name] members).map (·.map (f name)) := by
  rw [given?_singleton, given?_singleton, List.filter_map, List.map_map]
  have hvalues : (members.filter fun m => m.1 == name).map (fun m => f m.1 m.2) =
      ((members.filter fun m => m.1 == name).map (·.2)).map (f name) := by
    rw [List.map_map]
    refine List.map_congr_left fun m hm => ?_
    rw [← beq_iff_eq.1 (List.mem_filter.1 hm).2]
    rfl
  refine (congrArg sole hvalues).trans ?_
  generalize (members.filter fun m => m.1 == name).map (·.2) = found
  match found with
  | [] => rfl
  | [_] => rfl
  | _ :: _ :: _ => rfl

theorem given?_filter {p : String × Json → Bool} (h : ∀ m, m.1 ∈ names → p m = true) :
    given? names (members.filter p) = given? names members := by
  have hfilter : ((members.filter p).filter fun m => names.contains m.1) =
      members.filter fun m => names.contains m.1 := by
    rw [List.filter_filter]
    refine List.filter_congr fun m _ => ?_
    by_cases hm : m.1 ∈ names <;> simp [hm, h]
  rw [given?, given?, hfilter]

theorem mem_of_given? {v : Json} (h : given? names members = some (some v)) :
    ∃ name ∈ names, (name, v) ∈ members := by
  have hmem : v ∈ (members.filter fun m => names.contains m.1).map (·.2) := by
    rw [given?] at h
    generalize (members.filter fun m => names.contains m.1).map (·.2) = found at h ⊢
    match found, h with
    | [_], rfl => exact List.mem_singleton_self v
  obtain ⟨⟨name, _⟩, hm, rfl⟩ := List.mem_map.1 hmem
  obtain ⟨hm, hname⟩ := List.mem_filter.1 hm
  exact ⟨name, List.contains_iff_mem.1 hname, hm⟩

end

def Lacks (names : List String) (place : Nat) : Json → Prop
  | .object members => ∀ m ∈ members, m.1 ∉ names
  | .array items => items.length ≤ place
  | _ => True

@[simp] theorem string?_string (s : String) : (Json.string s).string? = some s := rfl

/-- A field that may be left out: its absence says the same as the given value. In an array only the
last field that is given can be. -/
structure LeftOut (read : Json → Option α) (names : List String) (place : Nat) (value : Json) :
    Prop where
  member : ∀ before after, (∀ m ∈ before ++ after, m.1 ∉ names) → ∀ name ∈ names,
    read (.object (before ++ (name, value) :: after)) = read (.object (before ++ after))
  item : ∀ items, items.length = place → read (.array (items ++ [value])) = read (.array items)

theorem leftOut_of_given {read : Json → Option α} {names : List String} {place : Nat} {value : Json}
    (hmember : ∀ ms ns : List (String × Json),
      given? names ms = some (some value) → given? names ns = some none →
      (∀ others, (∀ name ∈ names, name ∉ others) → given? others ms = given? others ns) →
      read (.object ms) = read (.object ns))
    (hitem : ∀ items, items.length = place →
      read (.array (items ++ [value])) = read (.array items)) :
    LeftOut read names place value where
  member before after habsent name hname := by
    have hmiddle : ∀ others, given? others (before ++ (name, value) :: after) =
        given? others ((name, value) :: (before ++ after)) := fun _ => given?_perm List.perm_middle
    apply hmember
    · rw [hmiddle, given?_cons_self hname habsent]
    · exact given?_absent habsent
    · intro others hothers
      rw [hmiddle, given?_cons_other (hothers name hname)]
  item := hitem

theorem mapM_eq_some_iff {β : Type} {read : β → Option α} {items : List β} {xs : List α} :
    items.mapM read = some xs ↔ List.Forall₂ (fun item x => read item = some x) items xs := by
  induction items generalizing xs with
  | nil => simp [eq_comm]
  | cons item items ih =>
    cases hx : read item with
    | none => simp [hx, List.forall₂_cons_left_iff]
    | some x =>
      cases hxs : items.mapM read with
      | none =>
        simp only [List.mapM_cons, hx, hxs, List.forall₂_cons_left_iff]
        simp [← ih, hxs]
      | some rest =>
        simp only [List.mapM_cons, hx, hxs, List.forall₂_cons_left_iff]
        simp [← ih, hxs, eq_comm]

theorem fields?_object_eq_some_iff {s : Source} {names : List String}
    {members : List (String × Json)} {given : List (Option Json)} :
    fields? s names (.object members) = some given ↔
      List.Forall₂ (fun name g => given? [name] members = some g) names given := by
  rw [fields?_object, mapM_eq_some_iff]

theorem listOf?_eq_some_iff {read : Json → Option α} {v : Json} {xs : List α} :
    listOf? read v = some xs ↔
      ∃ items, v = .array items ∧ List.Forall₂ (fun item x => read item = some x) items xs := by
  cases v <;> simp [listOf?, mapM_eq_some_iff]

theorem exists_of_mem_listOf? {read : Json → Option α} {v : Json} {xs : List α}
    (h : listOf? read v = some xs) {x : α} (hx : x ∈ xs) : ∃ item, read item = some x := by
  obtain ⟨items, -, hread⟩ := listOf?_eq_some_iff.1 h
  clear h
  induction hread with
  | nil => exact absurd hx List.not_mem_nil
  | cons hitem _ ih =>
    rcases List.mem_cons.1 hx with rfl | hx
    · exact ⟨_, hitem⟩
    · exact ih hx

theorem listOf?_map {read : Json → Option α} {write : α → Json} {xs : List α}
    (h : ∀ x ∈ xs, read (write x) = some x) : listOf? read (.array (xs.map write)) = some xs := by
  rw [listOf?_eq_some_iff]
  refine ⟨_, rfl, ?_⟩
  rw [List.forall₂_map_left_iff, List.forall₂_same]
  exact h

theorem pairsOf?_map {read : Json → Option α} (write : α → Json) {pairs : List (String × α)}
    (h : ∀ p ∈ pairs, read (write p.2) = some p.2) :
    pairsOf? read (.object (pairs.map fun p => (p.1, write p.2))) = some pairs := by
  rw [pairsOf?, mapM_eq_some_iff, List.forall₂_map_left_iff, List.forall₂_same]
  intro p hp
  rw [h p hp, Option.map_some]

theorem pairsOf?_perm {read : Json → Option α} {ms ms' : List (String × Json)}
    {pairs : List (String × α)} (h : ms'.Perm ms)
    (hread : pairsOf? read (.object ms) = some pairs) :
    ∃ pairs', pairsOf? read (.object ms') = some pairs' ∧ pairs.Perm pairs' := by
  rw [pairsOf?, mapM_eq_some_iff] at hread
  obtain ⟨pairs', hread', hperm⟩ := List.perm_comp_forall₂ h hread
  exact ⟨pairs', mapM_eq_some_iff.2 hread', hperm.symm⟩

def written : List String → List (Option α) → List (String × α)
  | name :: names, some v :: given => (name, v) :: written names given
  | _ :: names, none :: given => written names given
  | _, _ => []

theorem keys_written (names : List String) (given : List (Option α)) :
    ((written names given).map (·.1)).Sublist names := by
  fun_induction written names given with
  | case1 name names v given ih => exact ih.cons_cons name
  | case2 name names given ih => exact ih.cons name
  | case3 => exact List.nil_sublist _

theorem mem_of_mem_written {names : List String} {given : List (Option α)} {m : String × α}
    (h : m ∈ written names given) : m.1 ∈ names :=
  (keys_written names given).mem (List.mem_map_of_mem h)

theorem given_of_mem_written {names : List String} {given : List (Option α)} {m : String × α}
    (h : m ∈ written names given) : some m.2 ∈ given := by
  fun_induction written names given with
  | case1 name names v given ih =>
    rcases List.mem_cons.1 h with rfl | h
    · exact List.mem_cons_self
    · exact List.mem_cons_of_mem _ (ih h)
  | case2 name names given ih => exact List.mem_cons_of_mem _ (ih h)
  | case3 => cases h

theorem written_map {β : Type} (f : α → β) (names : List String) (given : List (Option α)) :
    ((written names given).map fun m => (m.1, f m.2)) = written names (given.map (·.map f)) := by
  fun_induction written names given with
  | case1 name names v given ih => exact congrArg ((name, f v) :: ·) ih
  | case2 name names given ih => exact ih
  | case3 names given h1 h2 =>
    match names, given with
    | [], _ => rfl
    | _ :: _, [] => rfl
    | _ :: _, some _ :: _ => exact absurd rfl (h1 _ _ _ _ rfl)
    | _ :: _, none :: _ => exact absurd rfl (h2 _ _ _ rfl)

theorem given?_written {names : List String} (hnames : names.Nodup) {given : List (Option Json)}
    {p : String × Option Json} (hp : p ∈ names.zip given) :
    given? [p.1] (written names given) = some p.2 := by
  induction names generalizing given with
  | nil => cases hp
  | cons name names ih =>
    rw [List.nodup_cons] at hnames
    match given with
    | [] => cases hp
    | g :: given =>
      have habsent : ∀ m ∈ written names given, m.1 ∉ [name] := by
        intro m hm
        rw [List.mem_singleton]
        exact fun h => hnames.1 (h ▸ mem_of_mem_written hm)
      rcases List.mem_cons.1 hp with rfl | hrest
      · cases g with
        | none => exact given?_absent habsent
        | some v => exact given?_cons_self List.mem_cons_self habsent v
      · have hother : name ∉ [p.1] := by
          rw [List.mem_singleton]
          exact fun h => hnames.1 (h ▸ (List.of_mem_zip hrest).1)
        cases g with
        | none => exact ih hnames.2 hrest
        | some v => exact (given?_cons_other hother v).trans (ih hnames.2 hrest)

theorem fields?_perm_written (s : Source) {names : List String} {given : List (Option Json)}
    {members : List (String × Json)} (h : members.Perm (written names given))
    (hnames : names.Nodup) (hlength : names.length = given.length) :
    fields? s names (.object members) = some given := by
  rw [fields?_object_eq_some_iff, List.forall₂_iff_zip]
  refine ⟨hlength, fun {name g} hp => ?_⟩
  rw [given?_perm h]
  exact given?_written hnames hp

theorem natBelow?_natural {bound n : Nat} (h : n < bound) :
    natBelow? bound (.natural n) = some n := by
  have hbound : 0 ≤ (n : Int) ∧ (n : Int) < bound := by omega
  rw [natural, natBelow?, if_pos hbound, Int.toNat_natCast]

theorem lt_of_natBelow? {bound n : Nat} {v : Json} (h : natBelow? bound v = some n) :
    n < bound := by
  cases v with
  | integer i =>
    rw [natBelow?] at h
    split at h
    · obtain rfl := Option.some.inj h
      omega
    · cases h
  | _ => cases h

theorem orElse_eq_some {read : Json → Option α} {default x : α} {given : Option Json}
    (h : orElse default read given = some x) :
    x = default ∨ ∃ v, given = some v ∧ read v = some x := by
  cases given with
  | none => exact .inl (Option.some.inj h).symm
  | some v => exact .inr ⟨v, rfl, h⟩

theorem nullable?_of_read {read : Json → Option α} {v : Json} {x : α} (hnull : read .null = none)
    (h : read v = some x) : nullable? read v = some (some x) := by
  cases v with
  | null => simp [hnull] at h
  | _ => simp [nullable?, h]

theorem nullable?_eq_some {read : Json → Option α} {v : Json} {x : α}
    (h : nullable? read v = some (some x)) : read v = some x := by
  cases v with
  | null => cases h
  | _ => simpa [nullable?] using h

section
variable (arrange : List (String × Json) → List (String × Json))

mutual

/-- The same value, with the members of every object in the order that they are given. -/
def arranged : Json → Json
  | .array items => .array (arrangedItems items)
  | .object members => .object (arrange (arrangedMembers members))
  | .null => .null
  | .bool b => .bool b
  | .integer i => .integer i
  | .real x => .real x
  | .string s => .string s

def arrangedItems : List Json → List Json
  | [] => []
  | v :: rest => arranged v :: arrangedItems rest

def arrangedMembers : List (String × Json) → List (String × Json)
  | [] => []
  | (name, v) :: rest => (name, arranged v) :: arrangedMembers rest

end

theorem arrangedItems_eq_map (items : List Json) :
    arrangedItems arrange items = items.map (arranged arrange) := by
  induction items with
  | nil => rfl
  | cons v rest ih => rw [arrangedItems, ih, List.map_cons]

theorem arrangedMembers_eq_map (members : List (String × Json)) :
    arrangedMembers arrange members = members.map fun m => (m.1, arranged arrange m.2) := by
  induction members with
  | nil => rfl
  | cons m rest ih => rw [arrangedMembers, ih, List.map_cons]

end

theorem fields?_arranged_written {arrange : List (String × Json) → List (String × Json)}
    (harr : ∀ ms, (arrange ms).Perm ms) (s : Source) {names : List String}
    {given : List (Option Json)} (hnames : names.Nodup) (hlength : names.length = given.length) :
    ((object (written names given)).arranged arrange).fields? s names =
      some (given.map (·.map (arranged arrange))) := by
  rw [arranged, arrangedMembers_eq_map, written_map]
  exact fields?_perm_written s (harr _) hnames (by rwa [List.length_map])

mutual

theorem arranged_id : ∀ v : Json, v.arranged id = v
  | .array items => by rw [arranged, arrangedItems_id]
  | .object members => by rw [arranged, arrangedMembers_id, id]
  | .null | .bool _ | .integer _ | .real _ | .string _ => rfl

theorem arrangedItems_id : ∀ items : List Json, arrangedItems id items = items
  | [] => rfl
  | v :: rest => by rw [arrangedItems, arranged_id, arrangedItems_id]

theorem arrangedMembers_id : ∀ members : List (String × Json), arrangedMembers id members = members
  | [] => rfl
  | (name, v) :: rest => by rw [arrangedMembers, arranged_id, arrangedMembers_id]

end

end HanaInsights.Json
