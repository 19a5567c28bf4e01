import HanaInsights.Proofs.Record
import HanaInsights.Proofs.Shape
import HanaInsights.Trigger.Document
set_option autoImplicit false

namespace HanaInsights

namespace Operation

def Spelled (op : Operation) : Prop := ofName op.name = op

theorem Spelled.eq {op : Operation} (h : op.Spelled) : ofName op.name = op := h

theorem spelled_of_mem_named {op : Operation} (h : op ∈ named) : op.Spelled := by
  have hall : ∀ op ∈ named, ofName op.name = op := by decide
  exact hall op h

theorem ofName_of_upper {op : Operation} (h : op ∈ named) {name : String}
    (hname : Text.upper name = op.name.toList) : ofName name = op := by
  have hself : ofName op.name = op := spelled_of_mem_named h
  have hupper : Text.upper op.name = op.name.toList := by
    have hall : ∀ op ∈ named, Text.upper op.name = op.name.toList := by decide
    exact hall op h
  have hfound : ∃ found, (named.find? fun o => o.name.toList == op.name.toList) = some found := by
    rw [← Option.isSome_iff_exists, List.find?_isSome]
    exact ⟨op, h, beq_self_eq_true _⟩
  obtain ⟨found, hfound⟩ := hfound
  rw [ofName, hupper] at hself
  rw [ofName, hname]
  rw [hfound] at hself ⊢
  exact hself

theorem ofName_eq (name : String) : ofName name ∈ named ∨ ofName name = .unrecognized name := by
  rw [ofName]
  split
  · exact .inl (by decide)
  · cases hfound : named.find? fun op => op.name.toList == Text.upper name with
    | none => exact .inr rfl
    | some op => exact .inl (List.mem_of_find?_eq_some hfound)

theorem spelled_ofName (name : String) : (ofName name).Spelled := by
  rcases ofName_eq name with h | h
  · exact spelled_of_mem_named h
  · rw [Spelled, h, Operation.name, h]

theorem eq_of_ofName_unrecognized {name kept : String} (h : ofName name = .unrecognized kept) :
    kept = name := by
  rcases ofName_eq name with hnamed | hname
  · rw [h] at hnamed
    simp [named] at hnamed
  · rw [hname] at h
    exact (unrecognized.inj h).symm

def ofJson? (v : Json) : Option Operation := v.string?.map ofName

theorem spelled_of_ofJson? {v : Json} {op : Operation} (h : ofJson? v = some op) : op.Spelled := by
  obtain ⟨name, -, rfl⟩ := Option.map_eq_some_iff.1 h
  exact spelled_ofName name

end Operation

namespace Trigger

def Field.names : Field → List String
  | .operation => ["operation"]
  | .lhs => ["lhs"]
  | .rhs => ["rhs"]
  | .children => ["childEvals", "child_evals"]

theorem Field.ofName?_eq_some_iff {name : String} {field : Field} :
    ofName? name = some field ↔ name ∈ field.names := by
  unfold ofName?
  split <;> cases field <;> simp_all [names]

def Field.values (field : Field) (members : List (String × Json)) : List Json :=
  (members.filter fun m => field.names.contains m.1).map (·.2)

theorem Field.values_cons {name : String} {v : Json} {members : List (String × Json)}
    (field : Field) : field.values ((name, v) :: members) =
      if ofName? name = some field then v :: field.values members else field.values members := by
  by_cases h : name ∈ field.names <;> simp [values, ofName?_eq_some_iff, h]

/-- What a field comes to once further values are given for it, of which it takes one at most. -/
def settled {α : Type} (default : α) (read : Json → Option α) : Option α → List Json → Option α
  | held, [] => some (held.getD default)
  | none, [v] => read v
  | _, _ => none

theorem settled_cons {α : Type} (default : α) (read : Json → Option α) (held : Option α) (v : Json)
    (rest : List Json) :
    settled default read held (v :: rest) =
      if held.isSome then none
      else (read v).bind fun x => settled default read (some x) rest := by
  cases held <;> cases rest <;> cases h : read v <;> simp [settled, h]

theorem settled_none {α : Type} (default : α) (read : Json → Option α) (field : Field)
    (members : List (String × Json)) :
    settled default read none (field.values members) =
      (Json.given? field.names members).bind (Json.orElse default read) := by
  rw [Json.given?, ← Field.values]
  rcases field.values members with _ | ⟨v, _ | ⟨_, _⟩⟩ <;> rfl

theorem ofArray?_eq_mapM (items : List Json) : ofArray? items = items.mapM ofJson? := by
  induction items with
  | nil => rfl
  | cons v rest ih =>
    rw [ofArray?, ih]
    cases hv : ofJson? v <;> cases hrest : rest.mapM ofJson? <;> simp [hv, hrest]

theorem setField?_operation (v : Json) (d : Draft) :
    setField? .operation v d = if d.operation.isSome then none
      else (Operation.ofJson? v).map fun op => { d with operation := some op } := by
  cases v <;> simp [setField?, Draft.setOperation, Operation.ofJson?, Json.string?]

theorem setField?_lhs (v : Json) (d : Draft) :
    setField? .lhs v d = if d.lhs.isSome then none
      else v.string?.map fun s => { d with lhs := some s } := by
  cases v <;> simp [setField?, Draft.setLhs, Json.string?]

theorem setField?_rhs (v : Json) (d : Draft) :
    setField? .rhs v d = if d.rhs.isSome then none
      else v.string?.map fun s => { d with rhs := some s } := by
  cases v <;> simp [setField?, Draft.setRhs, Json.string?]

theorem setField?_children (v : Json) (d : Draft) :
    setField? .children v d = if d.children.isSome then none
      else (v.listOf? ofJson?).map fun ts => { d with children := some ts } := by
  cases v with
  | array items =>
    cases h : items.mapM ofJson? <;>
      simp [setField?, ofArray?_eq_mapM, Draft.setChildren, Json.listOf?, h]
  | _ => simp [setField?, Json.listOf?]

theorem map_finish_ofMembers? (members : List (String × Json)) (d : Draft) :
    (ofMembers? members d).map Draft.finish =
      (settled .undefined Operation.ofJson? d.operation
        (Field.operation.values members)).bind fun operation =>
      (settled "" Json.string? d.lhs (Field.lhs.values members)).bind fun lhs =>
      (settled "" Json.string? d.rhs (Field.rhs.values members)).bind fun rhs =>
      (settled [] (Json.listOf? ofJson?) d.children (Field.children.values members)).map
        fun children => .node operation lhs rhs children := by
  -- every member is read with another draft, so what a field holds by then is left open
  induction members generalizing d with
  | nil => rfl
  | cons m rest ih =>
    obtain ⟨name, v⟩ := m
    obtain ⟨operation, lhs, rhs, children⟩ := d
    rw [ofMembers?]
    cases hf : Field.ofName? name with
    | none => simp [Field.values_cons, hf, ih]
    | some field =>
      cases field with
      | operation =>
        cases operation <;> cases hv : Operation.ofJson? v <;>
          simp [Field.values_cons, hf, ih, settled_cons, setField?_operation, hv]
      | lhs =>
        cases lhs <;> cases hv : v.string? <;>
          simp [Field.values_cons, hf, ih, settled_cons, setField?_lhs, hv]
      | rhs =>
        cases rhs <;> cases hv : v.string? <;>
          simp [Field.values_cons, hf, ih, settled_cons, setField?_rhs, hv]
      | children =>
        cases children <;> cases hv : v.listOf? ofJson? <;>
          simp [Field.values_cons, hf, ih, settled_cons, setField?_children, hv]

theorem ofJson?_object (members : List (String × Json)) :
    ofJson? (.object members) =
      ((Json.given? Field.operation.names members).bind
        (Json.orElse .undefined Operation.ofJson?)).bind fun operation =>
      ((Json.given? Field.lhs.names members).bind (Json.orElse "" Json.string?)).bind fun lhs =>
      ((Json.given? Field.rhs.names members).bind (Json.orElse "" Json.string?)).bind fun rhs =>
      ((Json.given? Field.children.names members).bind
        (Json.orElse [] (Json.listOf? ofJson?))).map fun children =>
          .node operation lhs rhs children := by
  rw [ofJson?, map_finish_ofMembers?]
  simp only [settled_none]

theorem ofJson?_object_perm {members others : List (String × Json)} (h : members.Perm others) :
    ofJson? (.object members) = ofJson? (.object others) := by
  simp only [ofJson?_object, Json.given?_perm h]

def Field.place (field : Field) : Nat := Field.order.idxOf field

/-- The value that says of a field what its absence says. -/
def Field.absent : Field → Json
  | .children => .array []
  | _ => .string ""

theorem ofJson?_array_concat (field : Field) {items : List Json}
    (h : items.length = field.place) :
    ofJson? (.array (items ++ [field.absent])) = ofJson? (.array items) := by
  cases field with
  | operation =>
    obtain rfl := List.eq_nil_of_length_eq_zero h
    rfl
  | lhs =>
    obtain ⟨op, rfl⟩ := List.length_eq_one_iff.1 h
    cases hop : Operation.ofJson? op <;>
      simp [ofJson?, ofItems?, Field.order, setField?_operation, setField?_lhs, hop, Draft.finish,
        Field.absent]
  | rhs =>
    obtain ⟨op, l, rfl⟩ := List.length_eq_two.1 h
    cases hop : Operation.ofJson? op <;> cases hl : l.string? <;>
      simp [ofJson?, ofItems?, Field.order, setField?_operation, setField?_lhs, setField?_rhs, hop,
        hl, Draft.finish, Field.absent]
  | children =>
    obtain ⟨op, l, r, rfl⟩ := List.length_eq_three.1 h
    cases hop : Operation.ofJson? op <;> cases hl : l.string? <;> cases hr : r.string? <;>
      simp [ofJson?, ofItems?, Field.order, setField?_operation, setField?_lhs, setField?_rhs,
        setField?_children, hop, hl, hr, Draft.finish, Field.absent, Json.listOf?]

theorem leftOut_field (field : Field) :
    Json.LeftOut ofJson? field.names field.place field.absent := by
  apply Json.leftOut_of_given
  · intro ms ns hms hns hothers
    have hother : ∀ other : Field, other ≠ field →
        Json.given? other.names ms = Json.given? other.names ns := by
      refine fun other hne => hothers other.names fun name hname hmem => hne ?_
      rw [← Field.ofName?_eq_some_iff] at hmem hname
      exact Option.some.inj (hmem.symm.trans hname)
    cases field <;>
      simp only [ofJson?_object, hms, hns, hother, ne_eq, reduceCtorEq, not_false_eq_true] <;>
      rfl
  · exact fun items => ofJson?_array_concat field

/-- Every operation in it is read from its name. -/
def Spelled (t : Trigger) : Prop := ∀ n ∈ t.nodes, n.operation.Spelled

theorem spelled_node {op : Operation} {lhs rhs : String} {children : List Trigger} :
    Spelled (.node op lhs rhs children) ↔ op.Spelled ∧ ∀ c ∈ children, c.Spelled := by
  simp only [Spelled, nodes_node, List.mem_cons, List.mem_flatMap, forall_eq_or_imp]
  constructor
  · rintro ⟨hop, hchildren⟩
    exact ⟨hop, fun c hc n hn => hchildren n ⟨c, hc, hn⟩⟩
  · rintro ⟨hop, hchildren⟩
    exact ⟨hop, fun n ⟨c, hc, hn⟩ => hchildren c hc n hn⟩

structure Draft.Read (d : Draft) : Prop where
  operation : (d.operation.getD .undefined).Spelled
  children : ∀ c ∈ d.children.getD [], ∃ v, ofJson? v = some c

theorem Draft.Read.empty : Draft.Read {} :=
  ⟨Operation.spelled_of_mem_named (by decide), by simp⟩

theorem setField?_read {field : Field} {v : Json} {d d' : Draft}
    (h : setField? field v d = some d') (hd : d.Read) : d'.Read := by
  cases field with
  | operation =>
    rw [setField?_operation] at h
    split at h
    · cases h
    · obtain ⟨op, hop, rfl⟩ := Option.map_eq_some_iff.1 h
      exact ⟨Operation.spelled_of_ofJson? hop, hd.children⟩
  | lhs =>
    rw [setField?_lhs] at h
    split at h
    · cases h
    · obtain ⟨l, -, rfl⟩ := Option.map_eq_some_iff.1 h
      exact ⟨hd.operation, hd.children⟩
  | rhs =>
    rw [setField?_rhs] at h
    split at h
    · cases h
    · obtain ⟨r, -, rfl⟩ := Option.map_eq_some_iff.1 h
      exact ⟨hd.operation, hd.children⟩
  | children =>
    rw [setField?_children] at h
    split at h
    · cases h
    · obtain ⟨children, hread, rfl⟩ := Option.map_eq_some_iff.1 h
      exact ⟨hd.operation, fun c hc => Json.exists_of_mem_listOf? hread hc⟩

theorem ofMembers?_read {members : List (String × Json)} {d d' : Draft}
    (h : ofMembers? members d = some d') (hd : d.Read) : d'.Read := by
  induction members generalizing d with
  | nil => exact Option.some.inj h ▸ hd
  | cons m rest ih =>
    obtain ⟨name, v⟩ := m
    rw [ofMembers?] at h
    split at h
    · exact ih h hd
    · split at h
      · next hset => exact ih h (setField?_read hset hd)
      · cases h

theorem ofItems?_read {items : List Json} {fields : List Field} {d d' : Draft}
    (h : ofItems? items fields d = some d') (hd : d.Read) : d'.Read := by
  induction items generalizing fields d with
  | nil => exact Option.some.inj h ▸ hd
  | cons v rest ih =>
    cases fields with
    | nil => cases h
    | cons field fields =>
      rw [ofItems?] at h
      split at h
      · next hset => exact ih h (setField?_read hset hd)
      · cases h

theorem exists_read_of_ofJson? {v : Json} {t : Trigger} (h : ofJson? v = some t) :
    ∃ d : Draft, d.Read ∧ d.finish = t := by
  cases v with
  | object members =>
    obtain ⟨d, hread, hfinish⟩ := Option.map_eq_some_iff.1 (ofJson?.eq_def _ ▸ h)
    exact ⟨d, ofMembers?_read hread .empty, hfinish⟩
  | array items =>
    obtain ⟨d, hread, hfinish⟩ := Option.map_eq_some_iff.1 (ofJson?.eq_def _ ▸ h)
    exact ⟨d, ofItems?_read hread .empty, hfinish⟩
  | _ => simp [ofJson?] at h

theorem spelled_of_ofJson? {v : Json} {t : Trigger} (h : ofJson? v = some t) : t.Spelled := by
  induction t using induction generalizing v with
  | step op lhs rhs children ih =>
    obtain ⟨d, hread, hfinish⟩ := exists_read_of_ofJson? h
    obtain ⟨rfl, rfl, rfl, rfl⟩ := node.inj hfinish
    rw [spelled_node]
    refine ⟨hread.operation, fun c hc => ?_⟩
    obtain ⟨item, hitem⟩ := hread.children c hc
    exact ih c hc hitem

theorem toJsonAll_eq_map (ts : List Trigger) : toJsonAll ts = ts.map toJson := by
  induction ts with
  | nil => rfl
  | cons t rest ih => rw [toJsonAll, ih, List.map_cons]

theorem ofJson?_arranged_toJson {arrange : List (String × Json) → List (String × Json)}
    (harr : ∀ ms, (arrange ms).Perm ms) {t : Trigger} (h : t.Spelled) :
    ofJson? (t.toJson.arranged arrange) = some t := by
  induction t using induction with
  | step op lhs rhs children ih =>
    obtain ⟨hop, hchildren⟩ := spelled_node.1 h
    have hlist : Json.listOf? ofJson?
        (.array (children.map fun c => c.toJson.arranged arrange)) = some children :=
      Json.listOf?_map fun c hc => ih c hc (hchildren c hc)
    rw [toJson, toJsonAll_eq_map, Json.arranged, ofJson?_object_perm (harr _), ofJson?_object]
    by_cases hl : lhs = "" <;> by_cases hr : rhs = "" <;> by_cases hc : children = [] <;>
      simp [hl, hr, hc, Json.arranged, Json.arrangedMembers, Json.arrangedItems_eq_map, Json.given?,
        Json.sole, Field.names, Json.orElse, Json.string?, Operation.ofJson?, hop.eq, hlist,
        Function.comp_def]

end Trigger
end HanaInsights
