import HanaInsights.Proofs.TomlDocument
set_option autoImplicit false

/-!
The integers of TOML documents. They have 64 bits with a sign, so a count that was read from a
document can be written again, although counts have 64 bits without one.
-/

namespace HanaInsights.Json

inductive Signed : Json → Prop
  | null : Signed .null
  | bool (b : Bool) : Signed (.bool b)
  | integer {i : Int} (h : Toml.isInt64 i = true) : Signed (.integer i)
  | real (x : Binary64) : Signed (.real x)
  | string (s : String) : Signed (.string s)
  | array {items : List Json} (h : ∀ v ∈ items, Signed v) : Signed (.array items)
  | object {members : List (String × Json)} (h : ∀ m ∈ members, Signed m.2) :
    Signed (.object members)

theorem Signed.of_given? {names : List String} {members : List (String × Json)} {v : Json}
    (h : Signed (.object members)) (hgiven : given? names members = some (some v)) : v.Signed := by
  obtain ⟨name, -, hmem⟩ := mem_of_given? hgiven
  cases h with
  | object h => exact h _ hmem

theorem Signed.of_fields? {s : Source} {names : List String} {v w : Json}
    {given : List (Option Json)} (h : v.Signed) (hfields : v.fields? s names = some given)
    (hw : some w ∈ given) : w.Signed := by
  cases h with
  | @object members hmembers =>
    rw [fields?_object_eq_some_iff] at hfields
    obtain ⟨i, hi, hget⟩ := List.mem_iff_getElem.1 hw
    have hname := (List.forall₂_iff_get.1 hfields).2 i (by rw [hfields.length_eq]; exact hi) hi
    rw [List.get_eq_getElem, List.get_eq_getElem, hget] at hname
    exact (Signed.object hmembers).of_given? hname
  | @array items hitems =>
    rw [fields?] at hfields
    split at hfields
    · obtain rfl := Option.some.inj hfields
      rcases List.mem_append.1 hw with hmem | hmem
      · obtain ⟨item, hitem, heq⟩ := List.mem_map.1 hmem
        obtain rfl := Option.some.inj heq
        exact hitems _ (List.mem_of_mem_take hitem)
      · cases (List.mem_replicate.1 hmem).2
    · cases hfields
  | _ => cases hfields

theorem Signed.lt_of_natBelow? {bound n : Nat} {v : Json} (h : v.Signed)
    (hread : natBelow? bound v = some n) : n < 9223372036854775808 := by
  cases h with
  | @integer i hi =>
    rw [natBelow?] at hread
    split at hread
    · obtain rfl := Option.some.inj hread
      simp only [Toml.isInt64, Bool.and_eq_true, decide_eq_true_eq] at hi
      omega
    · cases hread
  | _ => cases hread

end HanaInsights.Json

namespace HanaInsights.Toml

theorem natural?_of_lt {n : Nat} (h : n < 9223372036854775808) :
    natural? n = some (.integer n) :=
  if_pos (by omega)

theorem natural?_of_ge {n : Nat} (h : ¬ n < 9223372036854775808) : natural? n = none :=
  if_neg (by omega)

theorem regular_natural {depth n : Nat} (h : n < 9223372036854775808) :
    Regular depth (.integer n) :=
  .leaf (.integer (by simp [isInt64]; omega))

def Signed (v : Toml) : Prop := v.toJson.Signed

theorem signed_array {items : List Toml} (h : ∀ v ∈ items, v.Signed) : (array items).Signed := by
  rw [Signed, toJson, toJsonItems_eq_map]
  refine .array fun w hw => ?_
  obtain ⟨v, hv, rfl⟩ := List.mem_map.1 hw
  exact h v hv

theorem signed_table_iff {entries : List (String × Toml)} :
    (table entries).Signed ↔ ∀ e ∈ entries, e.2.Signed := by
  rw [Signed, toJson, toJsonEntries_eq_map]
  constructor
  · intro h
    cases h with
    | object h => exact fun e he => h _ (List.mem_map_of_mem he)
  · intro h
    refine .object fun m hm => ?_
    obtain ⟨e, he, rfl⟩ := List.mem_map.1 hm
    exact h e he

def Item.Signed (i : Item) : Prop := i.toToml.Signed

def SignedEntries (es : Entries) : Prop := ∀ e ∈ es, e.2.Signed

theorem signedEntries_nil : SignedEntries [] := nofun

theorem signed_entriesToToml_iff {es : Entries} :
    (table (entriesToToml es)).Signed ↔ SignedEntries es := by
  rw [signed_table_iff, entriesToToml_eq_map, List.forall_mem_map]
  rfl

theorem signed_tables_iff {elements : List Entries} :
    (Item.tables elements).Signed ↔ ∀ es ∈ elements, SignedEntries es := by
  rw [Item.Signed, Item.toToml, elementsToToml_eq_map]
  constructor
  · intro h es hes
    rw [Signed, toJson, toJsonItems_eq_map] at h
    cases h with
    | array h =>
      exact signed_entriesToToml_iff.1 (h _ (List.mem_map_of_mem
        (List.mem_reverse.2 (List.mem_map_of_mem hes))))
  · intro h
    refine signed_array fun v hv => ?_
    obtain ⟨es, hes, rfl⟩ := List.mem_map.1 (List.mem_reverse.1 hv)
    exact signed_entriesToToml_iff.2 (h es hes)

theorem signed_of_find? {key : String} {i : Item} {es : Entries} (h : SignedEntries es)
    (hfind : find? key es = some i) : i.Signed := by
  induction es with
  | nil => cases hfind
  | cons e rest ih =>
    obtain ⟨hfirst, hrest⟩ := List.forall_mem_cons.1 h
    rw [find?] at hfind
    split at hfind
    · obtain rfl := Option.some.inj hfind
      exact hfirst
    · exact ih hrest hfind

theorem mem_put {key : String} {i : Item} {es : Entries} {e : String × Item}
    (h : e ∈ put key i es) : e.2 = i ∨ e ∈ es := by
  induction es with
  | nil => exact .inl (by rw [List.mem_singleton.1 h])
  | cons old rest ih =>
    rw [put] at h
    split at h
    · rcases List.mem_cons.1 h with rfl | h
      · exact .inl rfl
      · exact .inr (List.mem_cons_of_mem _ h)
    · rcases List.mem_cons.1 h with rfl | h
      · exact .inr List.mem_cons_self
      · exact (ih h).imp_right (List.mem_cons_of_mem _)

theorem signedEntries_put {key : String} {i : Item} {es : Entries} (h : SignedEntries es)
    (hi : i.Signed) : SignedEntries (put key i es) := by
  intro e he
  rcases mem_put he with rfl | he
  · exact hi
  · exact h e he

/-- Keeps the integers within their bounds. -/
def KeepsSigned (change : Entries → Option Entries) : Prop :=
  ∀ es es', SignedEntries es → change es = some es' → SignedEntries es'

theorem keepsSigned_adjust (dotted : Bool) {change : Bool → Entries → Option Entries}
    (h : ∀ isDotted, KeepsSigned (change isDotted)) (path : List String) (isDotted : Bool) :
    KeepsSigned (adjust dotted change path isDotted) := by
  induction path generalizing isDotted with
  | nil => exact h isDotted
  | cons key path ih =>
    intro es es' hes hadjust
    rw [adjust] at hadjust
    split at hadjust
    next =>
      -- the path makes a table, which is empty before the change
      obtain ⟨inner, hinner, hput⟩ := Option.bind_eq_some_iff.1 hadjust
      obtain rfl := Option.some.inj hput
      have hsigned := ih dotted [] inner signedEntries_nil hinner
      exact signedEntries_put hes (signed_entriesToToml_iff.2 hsigned)
    next => cases hadjust
    next => cases hadjust
    next last earlier hfind =>
      -- the path leads into the last table of an array, the others stay
      obtain ⟨last', hlast, hput⟩ := Option.bind_eq_some_iff.1 hadjust
      obtain rfl := Option.some.inj hput
      have hold := signed_tables_iff.1 (signed_of_find? hes hfind)
      obtain ⟨hfirst, hearlier⟩ := List.forall_mem_cons.1 hold
      have hsigned := ih false last last' hfirst hlast
      exact signedEntries_put hes (signed_tables_iff.2 (List.forall_mem_cons.2 ⟨hsigned, hearlier⟩))
    next implicit innerDotted inner hfind =>
      split at hadjust
      · cases hadjust
      · obtain ⟨inner', hinner, hput⟩ := Option.bind_eq_some_iff.1 hadjust
        obtain rfl := Option.some.inj hput
        have hold := signed_entriesToToml_iff.1 (signed_of_find? hes hfind)
        have hsigned := ih innerDotted inner inner' hold hinner
        exact signedEntries_put hes (signed_entriesToToml_iff.2 hsigned)

theorem keepsSigned_setPair (path : List String) (key : String) {i : Item} (hi : i.Signed) :
    KeepsSigned (setPair path key i) := by
  refine keepsSigned_adjust true (fun isDotted es es' hes hset => ?_) path false
  split at hset
  · cases hset
  · split at hset
    · obtain rfl := Option.some.inj hset
      exact signedEntries_put hes hi
    · cases hset

theorem keepsSigned_openTable (path : List String) (key : String) :
    KeepsSigned (openTable path key) := by
  refine keepsSigned_adjust false (fun _ es es' hes hopen => ?_) path false
  split at hopen
  next =>
    obtain rfl := Option.some.inj hopen
    exact signedEntries_put hes (signed_entriesToToml_iff.2 signedEntries_nil)
  next inner hfind =>
    obtain rfl := Option.some.inj hopen
    have hinner := signed_entriesToToml_iff.1 (signed_of_find? hes hfind)
    exact signedEntries_put hes (signed_entriesToToml_iff.2 hinner)
  next => cases hopen

theorem keepsSigned_openElement (path : List String) (key : String) :
    KeepsSigned (openElement path key) := by
  refine keepsSigned_adjust false (fun _ es es' hes hopen => ?_) path false
  split at hopen
  next =>
    obtain rfl := Option.some.inj hopen
    exact signedEntries_put hes (signed_tables_iff.2 (List.forall_mem_singleton.2 signedEntries_nil))
  next elements hfind =>
    obtain rfl := Option.some.inj hopen
    have hold := signed_tables_iff.1 (signed_of_find? hes hfind)
    exact signedEntries_put hes
      (signed_tables_iff.2 (List.forall_mem_cons.2 ⟨signedEntries_nil, hold⟩))
  next => cases hopen

def ReadsSigned (value : List Char → Option (Toml × List Char)) : Prop :=
  ∀ cs v rest, value cs = some (v, rest) → v.Signed

theorem signed_of_int64? {i : Int} {v : Toml} (h : int64? i = some v) : v.Signed := by
  rw [int64?] at h
  split at h
  next hi =>
    obtain rfl := Option.some.inj h
    exact .integer hi
  next => cases h

theorem readsSigned_based? (base : Nat) (isDigit : Char → Bool) :
    ReadsSigned (based? base isDigit) := by
  intro cs v rest h
  obtain ⟨⟨ds, tail⟩, -, hvalue⟩ := Option.bind_eq_some_iff.1 h
  obtain ⟨w, hw, hpair⟩ := Option.bind_eq_some_iff.1 hvalue
  cases hpair
  exact signed_of_int64? hw

theorem readsSigned_decimalInteger? : ReadsSigned decimalInteger? := by
  intro cs v rest h
  obtain ⟨⟨ds, tail⟩, -, hvalue⟩ := Option.bind_eq_some_iff.1 h
  obtain ⟨w, hw, hpair⟩ := Option.bind_eq_some_iff.1 hvalue
  cases hpair
  exact signed_of_int64? hw

theorem readsSigned_integer? : ReadsSigned integer? := by
  intro cs v rest h
  unfold integer? at h
  split at h
  · exact readsSigned_based? _ _ _ _ _ h
  · exact readsSigned_based? _ _ _ _ _ h
  · exact readsSigned_based? _ _ _ _ _ h
  · exact readsSigned_decimalInteger? _ _ _ h

theorem readsSigned_decimalFloat? (negative : Bool) : ReadsSigned (decimalFloat? negative) := by
  intro cs v rest h
  obtain ⟨⟨whole, tail⟩, -, h⟩ := Option.bind_eq_some_iff.1 h
  have hreal : ∃ x, v = .float x := by
    simp only at h
    split at h
    · obtain ⟨⟨fraction, tail⟩, -, h⟩ := Option.bind_eq_some_iff.1 h
      simp only at h
      split at h
      all_goals
        split at h
        · cases h
        · cases h
          exact ⟨_, rfl⟩
    · obtain ⟨⟨exponent, tail⟩, -, h⟩ := Option.bind_eq_some_iff.1 h
      simp only at h
      split at h
      · cases h
      · cases h
        exact ⟨_, rfl⟩
  obtain ⟨x, rfl⟩ := hreal
  exact .real x

theorem readsSigned_float? : ReadsSigned float? := by
  intro cs v rest h
  rw [float?] at h
  simp only at h
  split at h
  · cases h
    exact .real _
  · cases h
    exact .real _
  · exact readsSigned_decimalFloat? _ _ _ _ h

theorem readsSigned_datetime? : ReadsSigned datetime? := by
  intro cs v rest h
  have htext : ∃ text, v = .datetime text := by
    rw [datetime?] at h
    split at h
    all_goals
      obtain ⟨⟨text, tail⟩, -, h⟩ := Option.bind_eq_some_iff.1 h
      cases h
      exact ⟨_, rfl⟩
  obtain ⟨text, rfl⟩ := htext
  exact .object (List.forall_mem_singleton.2 (.string _))

theorem readsSigned_number? : ReadsSigned number? := by
  intro cs v rest h
  rw [number?] at h
  split at h
  next hfound =>
    cases h
    exact readsSigned_datetime? _ _ _ hfound
  next =>
    split at h
    next hfound =>
      cases h
      exact readsSigned_float? _ _ _ hfound
    next => exact readsSigned_integer? _ _ _ h

theorem readsSigned_scalar? : ReadsSigned scalar? := by
  intro cs v rest h
  unfold scalar? at h
  split at h
  · cases h
    exact .bool true
  · cases h
    exact .bool false
  · obtain ⟨_, -, hpair⟩ := Option.map_eq_some_iff.1 h
    cases hpair
    exact .string _
  · obtain ⟨_, -, hpair⟩ := Option.map_eq_some_iff.1 h
    cases hpair
    exact .string _
  · exact readsSigned_number? _ _ _ h

section
variable {value : List Char → Option (Toml × List Char)} (hvalue : ReadsSigned value)
include hvalue

theorem signed_of_arrayItems {fuel : Nat} {cs rest : List Char} {items : List Toml}
    (h : arrayItems value fuel cs = some (items, rest)) : ∀ v ∈ items, v.Signed := by
  induction fuel generalizing cs items rest with
  | zero => cases h
  | succ fuel ih =>
    rw [arrayItems] at h
    split at h
    · cases h
      exact List.forall_mem_nil _
    · obtain ⟨⟨item, tail⟩, hitem, h⟩ := Option.bind_eq_some_iff.1 h
      have hfirst := hvalue _ _ _ hitem
      simp only at h
      split at h
      · cases h
        exact List.forall_mem_singleton.2 hfirst
      · obtain ⟨⟨later, tail⟩, hlater, h⟩ := Option.bind_eq_some_iff.1 h
        cases h
        exact List.forall_mem_cons.2 ⟨hfirst, ih hlater⟩
      · cases h

theorem signed_of_pair? {cs rest : List Char} {path : List String} {key : String} {v : Toml}
    (h : pair? value cs = some ((path, key, v), rest)) : v.Signed := by
  obtain ⟨⟨parts, afterKey⟩, -, h⟩ := Option.bind_eq_some_iff.1 h
  obtain ⟨afterMark, -, h⟩ := Option.bind_eq_some_iff.1 h
  obtain ⟨⟨w, afterValue⟩, hw, h⟩ := Option.bind_eq_some_iff.1 h
  obtain ⟨⟨path, key⟩, -, h⟩ := Option.bind_eq_some_iff.1 h
  cases h
  exact hvalue _ _ _ hw

theorem signed_of_inlinePairs {fuel : Nat} {es es' : Entries} {cs rest : List Char}
    (hes : SignedEntries es) (h : inlinePairs value fuel es cs = some (es', rest)) :
    SignedEntries es' := by
  induction fuel generalizing es cs with
  | zero => cases h
  | succ fuel ih =>
    obtain ⟨⟨⟨path, key, v⟩, afterPair⟩, hpair, h⟩ := Option.bind_eq_some_iff.1 h
    obtain ⟨next, hnext, h⟩ := Option.bind_eq_some_iff.1 h
    have hsigned := keepsSigned_setPair path key (signed_of_pair? hvalue hpair) es next hes hnext
    split at h
    · cases h
      exact hsigned
    · exact ih hsigned h
    · cases h

theorem readsSigned_inlineTable? : ReadsSigned (inlineTable? value) := by
  intro cs v rest h
  rw [inlineTable?] at h
  split at h
  · cases h
    exact signed_table_iff.2 (List.forall_mem_nil _)
  · obtain ⟨⟨es, tail⟩, hes, h⟩ := Option.bind_eq_some_iff.1 h
    cases h
    exact signed_entriesToToml_iff.2 (signed_of_inlinePairs hvalue signedEntries_nil hes)

end

theorem readsSigned_valueAt (depth : Nat) : ReadsSigned (valueAt depth) := by
  induction depth with
  | zero => exact readsSigned_scalar?
  | succ depth ih =>
    intro cs v rest h
    rw [valueAt.eq_def] at h
    simp only at h
    split at h
    next heq => cases heq
    next depth' _ heq =>
      cases heq
      obtain ⟨⟨items, tail⟩, hitems, h⟩ := Option.bind_eq_some_iff.1 h
      cases h
      exact signed_array (signed_of_arrayItems ih hitems)
    next heq =>
      cases heq
      exact readsSigned_inlineTable? ih _ _ _ h
    next => exact readsSigned_scalar? _ _ _ h

theorem signed_of_headerLine? {d d' : Draft} {cs rest : List Char} (hd : SignedEntries d.root)
    (h : headerLine? d cs = some (d', rest)) : SignedEntries d'.root := by
  obtain ⟨⟨parts, afterKey⟩, -, h⟩ := Option.bind_eq_some_iff.1 h
  obtain ⟨afterMark, -, h⟩ := Option.bind_eq_some_iff.1 h
  obtain ⟨afterLine, -, h⟩ := Option.bind_eq_some_iff.1 h
  obtain ⟨⟨path, key⟩, -, h⟩ := Option.bind_eq_some_iff.1 h
  obtain ⟨root, hroot, h⟩ := Option.bind_eq_some_iff.1 h
  cases h
  exact keepsSigned_openTable path key _ _ hd hroot

theorem signed_of_elementLine? {d d' : Draft} {cs rest : List Char} (hd : SignedEntries d.root)
    (h : elementLine? d cs = some (d', rest)) : SignedEntries d'.root := by
  obtain ⟨⟨parts, afterKey⟩, -, h⟩ := Option.bind_eq_some_iff.1 h
  obtain ⟨afterMark, -, h⟩ := Option.bind_eq_some_iff.1 h
  obtain ⟨afterMarks, -, h⟩ := Option.bind_eq_some_iff.1 h
  obtain ⟨afterLine, -, h⟩ := Option.bind_eq_some_iff.1 h
  obtain ⟨⟨path, key⟩, -, h⟩ := Option.bind_eq_some_iff.1 h
  obtain ⟨root, hroot, h⟩ := Option.bind_eq_some_iff.1 h
  cases h
  exact keepsSigned_openElement path key _ _ hd hroot

theorem signed_of_pairLine? {d d' : Draft} {cs rest : List Char} (hd : SignedEntries d.root)
    (h : pairLine? d cs = some (d', rest)) : SignedEntries d'.root := by
  obtain ⟨⟨⟨path, key, v⟩, afterPair⟩, hpair, h⟩ := Option.bind_eq_some_iff.1 h
  obtain ⟨afterLine, -, h⟩ := Option.bind_eq_some_iff.1 h
  obtain ⟨root, hroot, h⟩ := Option.bind_eq_some_iff.1 h
  cases h
  have hv : Item.Signed (.value v) := signed_of_pair? (readsSigned_valueAt _) hpair
  exact keepsSigned_adjust false (fun _ => keepsSigned_setPair path key hv) _ _ _ _ hd hroot

theorem signed_of_line? {d d' : Draft} {cs rest : List Char} (hd : SignedEntries d.root)
    (h : line? d cs = some (d', rest)) : SignedEntries d'.root := by
  rw [line?] at h
  split at h
  · exact signed_of_elementLine? hd h
  · exact signed_of_headerLine? hd h
  · split at h
    · cases h
      exact hd
    · exact signed_of_pairLine? hd h

theorem signed_of_lines? {fuel : Nat} {d d' : Draft} {cs : List Char} (hd : SignedEntries d.root)
    (h : lines? fuel d cs = some d') : SignedEntries d'.root := by
  induction fuel generalizing d cs with
  | zero =>
    cases cs with
    | nil =>
      cases h
      exact hd
    | cons => cases h
  | succ fuel ih =>
    cases cs with
    | nil =>
      cases h
      exact hd
    | cons c cs =>
      cases hline : line? d (c :: cs) with
      | none =>
        simp only [lines?, hline] at h
        cases h
      | some next =>
        simp only [lines?, hline] at h
        exact ih (signed_of_line? hd hline) h

/-- Every integer that is read from a document has 64 bits with a sign. -/
theorem signed_of_read? {text : String} {v : Toml} (h : read? text = some v) : v.Signed := by
  obtain ⟨d, hd, rfl⟩ := Option.map_eq_some_iff.1 h
  exact signed_entriesToToml_iff.2 (signed_of_lines? signedEntries_nil hd)

end HanaInsights.Toml
