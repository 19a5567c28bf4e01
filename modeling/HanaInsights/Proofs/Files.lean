import HanaInsights.Files.Tree
import HanaInsights.Proofs.Keyed
import HanaInsights.Proofs.Utf8
set_option autoImplicit false

namespace HanaInsights

namespace Path

theorem splitChars_ne_nil (cs : List Char) : splitChars cs ≠ [] := by
  cases cs with
  | nil => exact List.cons_ne_nil _ _
  | cons c cs =>
    rw [splitChars]
    split
    · exact List.cons_ne_nil _ _
    · split <;> exact List.cons_ne_nil _ _

theorem splitChars_append_slash (front back : List Char) :
    splitChars (front ++ '/' :: back) = splitChars front ++ splitChars back := by
  induction front with
  | nil => rfl
  | cons c cs ih =>
    rw [List.cons_append, splitChars, splitChars, ih]
    split
    · rfl
    · obtain ⟨part, parts, hparts⟩ := List.exists_cons_of_ne_nil (splitChars_ne_nil cs)
      rw [hparts]
      rfl

theorem splitChars_of_not_mem {cs : List Char} (h : '/' ∉ cs) : splitChars cs = [cs] := by
  induction cs with
  | nil => rfl
  | cons c cs ih =>
    rw [List.mem_cons, not_or] at h
    rw [splitChars, if_neg (Ne.symm h.1), ih h.2]

theorem parts_of_not_mem {name : String} (h : '/' ∉ name.toList) : parts name = [name] := by
  rw [parts, splitChars_of_not_mem h, List.map_singleton, String.ofList_toList]

theorem parts_append_slash (front back : String) :
    parts (front ++ "/" ++ back) = parts front ++ parts back := by
  have hsplit := splitChars_append_slash front.toList back.toList
  simp [parts, hsplit]

theorem parts_slash (front : String) : parts (front ++ "/") = parts front ++ [""] := by
  have hsplit := splitChars_append_slash front.toList []
  simp [parts, hsplit, splitChars]

theorem isAbsolute_append {front : String} (h : front ≠ "") (back : String) :
    isAbsolute (front ++ back) = isAbsolute front := by
  have hfront : front.toList ≠ [] := by simpa using h
  rw [isAbsolute, isAbsolute, String.toList_append, List.head?_append_of_ne_nil _ hfront]

theorem isAbsolute_of_not_mem {name : String} (h : '/' ∉ name.toList) :
    isAbsolute name = false := by
  rw [isAbsolute, beq_eq_false_iff_ne]
  exact fun hhead => h (List.mem_of_head? hhead)

theorem join_of_not_mem {name : String} (h : '/' ∉ name.toList) (dir : String) :
    dir = "" ∧ join dir name = name ∨
      ∃ front, (dir = front ++ "/" ∨ dir = front ∧ dir ≠ "") ∧
        join dir name = front ++ "/" ++ name := by
  rw [join, isAbsolute_of_not_mem h, if_neg Bool.false_ne_true]
  by_cases hempty : dir = ""
  · exact .inl ⟨hempty, by simp [hempty]⟩
  · rw [if_neg (by simpa using hempty)]
    right
    split
    next hlast =>
      obtain ⟨front, hfront⟩ := List.getLast?_eq_some_iff.1 (beq_iff_eq.1 hlast)
      have hdir : dir = String.ofList front ++ "/" := by simp [← String.toList_inj, hfront]
      exact ⟨String.ofList front, .inl hdir, by rw [hdir]⟩
    next => exact ⟨dir, .inr ⟨rfl, hempty⟩, rfl⟩

theorem join_inj {dir name other : String} (h : '/' ∉ name.toList) (hother : '/' ∉ other.toList) :
    join dir name = join dir other ↔ name = other := by
  refine ⟨fun hjoin => ?_, congrArg (join dir)⟩
  simp only [join, isAbsolute_of_not_mem h, isAbsolute_of_not_mem hother, Bool.false_eq_true,
    if_false] at hjoin
  split at hjoin
  · exact hjoin
  · split at hjoin <;> exact (String.append_right_inj _).1 hjoin

end Path

namespace FileTree

variable {t t' : FileTree}

theorem entry?_put (t : FileTree) (place : List String) (entry : FileEntry) (other : List String) :
    entry? (t.put place entry) other =
      if other ≠ [] ∧ fullName place = fullName other then some entry else t.entry? other := by
  cases other with
  | nil => simp [ entry?]
  | cons part parts => simp [ entry?, put, Keyed.get?_insert]

/-- Everything is still there, and what was a directory is one still. -/
structure Keeps (t t' : FileTree) : Prop where
  present : ∀ place, t.entry? place ≠ none → t'.entry? place ≠ none
  directory : ∀ place, t.entry? place = some .directory → t'.entry? place = some .directory

theorem keeps_put {place : List String} {bytes : List UInt8} {executable : Bool}
    (h : t.entry? place ≠ some .directory) : Keeps t (t.put place (.file bytes executable)) := by
  constructor
  · intro other hother
    rw [entry?_put]
    split
    next => exact Option.some_ne_none _
    next => exact hother
  · intro other hother
    rw [entry?_put, if_neg, hother]
    rintro ⟨hne, hname⟩
    have hplace : place ≠ [] := fun hnil => h (by rw [hnil]; rfl)
    apply h
    simpa [ entry?, hplace, hne, hname] using hother

/-- A walk that arrives. -/
inductive Way (t : FileTree) : List String → List String → List String → Prop
  | here (place : List String) : Way t place [] place
  | stay {place : List String} {part : String} {parts goal : List String}
    (directory : t.entry? place = some .directory) (hpart : part = "" ∨ part = ".")
    (rest : Way t place parts goal) : Way t place (part :: parts) goal
  | up {place parts goal : List String} (directory : t.entry? place = some .directory)
    (rest : Way t place.dropLast parts goal) : Way t place (".." :: parts) goal
  | down {place : List String} {part : String} {parts goal : List String}
    (directory : t.entry? place = some .directory) (hpart : ¬ (part = "" ∨ part = "."))
    (hup : part ≠ "..") (name : checkName part = .ok ())
    (present : t.entry? (place ++ [part]) ≠ none) (rest : Way t (place ++ [part]) parts goal) :
    Way t place (part :: parts) goal

theorem Way.of_walk {place parts goal : List String} (h : t.walk place parts = .ok goal) :
    Way t place parts goal := by
  induction parts generalizing place with
  | nil =>
    obtain rfl : place = goal := Except.ok.inj h
    exact .here place
  | cons part parts ih =>
    rw [FileTree.walk] at h
    cases hplace : t.entry? place with
    | none => simp [hplace] at h
    | some entry =>
      cases entry with
      | file bytes executable => simp [hplace] at h
      | directory =>
        simp only [hplace] at h
        split at h
        next hpart => exact .stay hplace hpart (ih h)
        next hpart =>
          split at h
          next hup =>
            subst hup
            exact .up hplace (ih h)
          next hup =>
            cases hname : checkName part with
            | error e => simp [hname, bind, Except.bind] at h
            | ok u =>
              cases hpresent : t.entry? (place ++ [part]) with
              | none => simp [hname, hpresent, bind, Except.bind] at h
              | some entry =>
                simp only [hname, hpresent, bind, Except.bind] at h
                exact .down hplace hpart hup hname (by simp [hpresent]) (ih h)

theorem Way.walk {place parts goal : List String} (h : Way t place parts goal) :
    t.walk place parts = .ok goal := by
  induction h with
  | here => rfl
  | stay directory hpart rest ih =>
    simp only [FileTree.walk, directory, if_pos hpart]
    exact ih
  | up directory rest ih => simpa [FileTree.walk, directory] using ih
  | @down place part parts goal directory hpart hup name present rest ih =>
    obtain ⟨entry, hentry⟩ := Option.ne_none_iff_exists'.1 present
    simp only [FileTree.walk, directory, if_neg hpart, if_neg hup, name, hentry, bind, Except.bind]
    exact ih

theorem Way.append {place parts mid others goal : List String} (h : Way t place parts mid)
    (hothers : Way t mid others goal) : Way t place (parts ++ others) goal := by
  induction h with
  | here => exact hothers
  | stay directory hpart rest ih => exact .stay directory hpart (ih hothers)
  | up directory rest ih => exact .up directory (ih hothers)
  | down directory hpart hup name present rest ih =>
    exact .down directory hpart hup name present (ih hothers)

theorem Way.of_append {place parts others goal : List String}
    (h : Way t place (parts ++ others) goal) :
    ∃ mid, Way t place parts mid ∧ Way t mid others goal := by
  induction parts generalizing place with
  | nil => exact ⟨place, .here place, h⟩
  | cons part parts ih =>
    cases h with
    | stay directory hpart rest =>
      obtain ⟨mid, hmid, hothers⟩ := ih rest
      exact ⟨mid, .stay directory hpart hmid, hothers⟩
    | up directory rest =>
      obtain ⟨mid, hmid, hothers⟩ := ih rest
      exact ⟨mid, .up directory hmid, hothers⟩
    | down directory hpart hup name present rest =>
      obtain ⟨mid, hmid, hothers⟩ := ih rest
      exact ⟨mid, .down directory hpart hup name present hmid, hothers⟩

theorem Way.of_name {place goal : List String} {name : String} (h : Way t place [name] goal)
    (hname : name ≠ "" ∧ name ≠ "." ∧ name ≠ "..") :
    t.entry? place = some .directory ∧ goal = place ++ [name] := by
  cases h with
  | stay directory hpart rest => exact absurd hpart (by simp [hname.1, hname.2.1])
  | up directory rest => exact absurd rfl hname.2.2
  | down directory hpart hup checked present rest =>
    cases rest
    exact ⟨directory, rfl⟩

theorem Way.of_keeps (hkeeps : Keeps t t') {place parts goal : List String}
    (h : Way t place parts goal) : Way t' place parts goal := by
  induction h with
  | here place => exact .here place
  | stay directory hpart rest ih => exact .stay (hkeeps.directory _ directory) hpart ih
  | up directory rest ih => exact .up (hkeeps.directory _ directory) ih
  | down directory hpart hup name present rest ih =>
    exact .down (hkeeps.directory _ directory) hpart hup name (hkeeps.present _ present) ih

def leadsTo (t : FileTree) (path : String) : Except FileFault (List String) :=
  t.walk (t.startOf path) (Path.parts path)

/-- A name joined to a directory stands right below the place the directory leads to. -/
theorem exists_of_leadsTo_join {dir name : String} {goal : List String} (hslash : '/' ∉ name.toList)
    (hname : name ≠ "" ∧ name ≠ "." ∧ name ≠ "..")
    (h : t.leadsTo (Path.join dir name) = .ok goal) :
    ∃ inside, t.leadsTo dir = .ok inside ∧ goal = inside ++ [name] := by
  have hway := Way.of_walk h
  rcases Path.join_of_not_mem hslash dir with ⟨rfl, hjoin⟩ | ⟨front, hdir, hjoin⟩
  · have hstart : t.startOf name = t.startOf "" := by
      rw [startOf, Path.isAbsolute_of_not_mem hslash]
      rfl
    rw [hjoin, hstart, Path.parts_of_not_mem hslash] at hway
    obtain ⟨hinside, hgoal⟩ := hway.of_name hname
    exact ⟨_, (Way.stay hinside (.inl rfl) (.here _)).walk, hgoal⟩
  · rw [hjoin, Path.parts_append_slash, Path.parts_of_not_mem hslash] at hway
    obtain ⟨inside, hfront, hlast⟩ := hway.of_append
    obtain ⟨hinside, hgoal⟩ := hlast.of_name hname
    refine ⟨inside, ?_, hgoal⟩
    rcases hdir with rfl | ⟨rfl, hne⟩
    · rw [startOf, Path.isAbsolute_append (by simp)] at hfront
      rw [leadsTo, Path.parts_slash]
      exact (hfront.append (.stay hinside (.inl rfl) (.here _))).walk
    · rw [startOf, String.append_assoc, Path.isAbsolute_append hne] at hfront
      exact hfront.walk

/-! ## Making directories -/

theorem entry?_congr {place other : List String} (hplace : place ≠ []) (hother : other ≠ [])
    (h : fullName place = fullName other) : t.entry? place = t.entry? other := by
  simp [ entry?, hplace, hother, h]

/-- Nothing has changed but that there are new directories. -/
def AddsDirectories (t t' : FileTree) : Prop :=
  ∀ place, t'.entry? place = t.entry? place ∨
    t.entry? place = none ∧ t'.entry? place = some .directory

theorem AddsDirectories.refl (t : FileTree) : AddsDirectories t t := fun _ => .inl rfl

theorem AddsDirectories.trans {t'' : FileTree} (h : AddsDirectories t t')
    (h' : AddsDirectories t' t'') : AddsDirectories t t'' := by
  intro place
  rcases h' place with hsame | ⟨habsent, hmade⟩
  · rw [hsame]
    exact h place
  · rcases h place with hsame | ⟨-, hmade'⟩
    · exact .inr ⟨hsame ▸ habsent, hmade⟩
    · rw [hmade'] at habsent
      cases habsent

theorem addsDirectories_put {place : List String} (h : t.entry? place = none) :
    AddsDirectories t (t.put place .directory) := by
  intro other
  rw [entry?_put]
  split
  next hother =>
    have hplace : place ≠ [] := by
      rintro rfl
      cases h
    exact .inr ⟨(entry?_congr hplace hother.1 hother.2).symm.trans h, rfl⟩
  next => exact .inl rfl

theorem addsDirectories_growWay (t : FileTree) (place parts : List String) :
    AddsDirectories t (t.growWay place parts).1 := by
  -- A directory is only put where nothing is; in every other case the tree stays as it is.
  induction parts generalizing t place with
  | nil => exact .refl t
  | cons part parts ih =>
    rw [growWay]
    split
    next => exact .refl t
    next => exact .refl t
    next =>
      split
      next => exact ih t place
      next =>
        split
        next => exact ih t place.dropLast
        next =>
          split
          next => exact .refl t
          next =>
            split
            next habsent => exact (addsDirectories_put habsent).trans (ih _ _)
            next => exact ih t (place ++ [part])

theorem addsDirectories_growDirectories (t : FileTree) (path : String) :
    AddsDirectories t (t.growDirectories path).1 := by
  rw [growDirectories]
  split
  next => exact .refl t
  next =>
    split
    next => exact .refl t
    next =>
      have hway := addsDirectories_growWay t (t.startOf path) (Path.parts path)
      split <;> rename_i hgrown <;> rw [hgrown] at hway
      next => exact hway
      next => split <;> exact hway

theorem growDirectories_of_makeDirectories {path : String} (h : t.makeDirectories path = .ok t') :
    t.growDirectories path = (t', .ok ()) := by
  rw [makeDirectories] at h
  cases hgrown : t.growDirectories path with
  | mk grown made =>
    rw [hgrown] at h
    cases made with
    | error fault => cases h
    | ok u =>
      cases h
      rfl

theorem exists_of_writeAt {place : List String} {name : String} {bytes : List UInt8}
    (h : t.writeAt place name bytes = .ok t') :
    t.entry? place = some .directory ∧ checkName name = .ok () ∧
      t.entry? (place ++ [name]) ≠ some .directory ∧
      ∃ executable, t' = t.put (place ++ [name]) (.file bytes executable) := by
  unfold writeAt at h
  split at h
  next => cases h
  next => cases h
  next hplace =>
    cases hname : checkName name with
    | error e => simp [hname, bind, Except.bind] at h
    | ok u =>
      simp only [hname, bind, Except.bind] at h
      split at h
      next => cases h
      next executable hentry =>
        exact ⟨hplace, rfl, by simp [hentry], executable, (Except.ok.inj h).symm⟩
      next hentry => exact ⟨hplace, rfl, by simp [hentry], false, (Except.ok.inj h).symm⟩

theorem exists_of_write {path : String} {bytes : List UInt8}
    (h : t.write path bytes = .ok t') :
    ∃ name parents place, checkPath path = .ok () ∧ Path.parts path = parents ++ [name] ∧
      (name ≠ "" ∧ name ≠ "." ∧ name ≠ "..") ∧ t.walk (t.startOf path) parents = .ok place ∧
      t.writeAt place name bytes = .ok t' := by
  cases hcheck : checkPath path with
  | error e => simp [write, hcheck, bind, Except.bind] at h
  | ok u =>
    simp only [write, hcheck, bind, Except.bind] at h
    split at h
    next => cases h
    next name parents hparts =>
      split at h
      next => cases h
      next hname =>
        cases hwalk : t.walk (t.startOf path) parents.reverse with
        | error e => simp [hwalk] at h
        | ok place =>
          rw [hwalk] at h
          simp only [not_or] at hname
          have hparts := congrArg List.reverse hparts
          rw [List.reverse_reverse, List.reverse_cons] at hparts
          exact ⟨name, parents.reverse, place, rfl, hparts, hname, hwalk, h⟩

theorem exists_writeAt {place : List String} {name : String} {bytes : List UInt8}
    (h : t.writeAt place name bytes = .ok t') (bytes' : List UInt8) :
    ∃ t'', t.writeAt place name bytes' = .ok t'' := by
  obtain ⟨hplace, hname, hfree, -⟩ := exists_of_writeAt h
  simp only [writeAt, hplace, hname, bind, Except.bind]
  split
  next hentry => exact absurd hentry hfree
  next => exact ⟨_, rfl⟩
  next => exact ⟨_, rfl⟩

theorem exists_write {path : String} {bytes : List UInt8} (h : t.write path bytes = .ok t')
    (bytes' : List UInt8) : ∃ t'', t.write path bytes' = .ok t'' := by
  obtain ⟨name, parents, place, hcheck, hparts, ⟨hempty, hdot, hup⟩, hwalk, hwrite⟩ :=
    exists_of_write h
  obtain ⟨t'', hwrite'⟩ := exists_writeAt hwrite bytes'
  refine ⟨t'', ?_⟩
  simp [write, hcheck, hparts, hempty, hdot, hup, hwalk, hwrite', bind, Except.bind]

/-- What was written stands where the path leads to. -/
theorem exists_put_of_write {path : String} {bytes : List UInt8}
    (h : t.write path bytes = .ok t') :
    ∃ place executable, t' = t.put place (.file bytes executable) ∧
      t'.leadsTo path = .ok place ∧ t'.entry? place = some (.file bytes executable) := by
  obtain ⟨name, parents, place, hcheck, hparts, ⟨hempty, hdot, hup⟩, hwalk, hwrite⟩ :=
    exists_of_write h
  obtain ⟨hplace, hname, hfree, executable, rfl⟩ := exists_of_writeAt hwrite
  have hkeeps : Keeps t (t.put (place ++ [name]) (.file bytes executable)) := keeps_put hfree
  refine ⟨place ++ [name], executable, rfl, ?_⟩
  generalize hput : t.put (place ++ [name]) (.file bytes executable) = t' at hkeeps
  have hentry : t'.entry? (place ++ [name]) = some (.file bytes executable) := by
    simp [← hput, entry?_put]
  have hway : Way t' (t.startOf path) (parents ++ [name]) (place ++ [name]) := by
    refine (Way.of_walk hwalk |>.of_keeps hkeeps).append ?_
    exact .down (hkeeps.directory _ hplace) (by simp [hempty, hdot]) hup hname (by simp [hentry])
      (.here _)
  have hstart : t'.startOf path = t.startOf path := by rw [← hput]; rfl
  exact ⟨by rw [leadsTo, hstart, hparts, hway.walk], hentry⟩

theorem read_of_write {path : String} {bytes : List UInt8} (h : t.write path bytes = .ok t') :
    t'.read path = .ok bytes := by
  obtain ⟨name, parents, -, hcheck, hparts, ⟨hempty, -, -⟩, -, -⟩ := exists_of_write h
  obtain ⟨place, executable, -, hleads, hentry⟩ := exists_put_of_write h
  have hpath : path.isEmpty = false := by
    cases hp : path.isEmpty with
    | false => rfl
    | true =>
      obtain rfl : path = "" := by simpa using hp
      have hlast : some "" = (parents ++ [name]).getLast? := congrArg List.getLast? hparts
      simp [Ne.symm hempty] at hlast
  rw [leadsTo] at hleads
  have hlocate : t'.locate path = .ok place := by
    simp only [locate, hcheck, hpath, hleads, bind, Except.bind, Bool.false_eq_true, if_false]
  simp only [read, hlocate, hentry, bind, Except.bind]

theorem readText_of_write {path text : String} (h : t.write path (Utf8.encode text) = .ok t') :
    t'.readText path = .ok text := by
  simp only [readText, read_of_write h, textOf, Utf8.decode?_encode, bind, Except.bind]

end FileTree
end HanaInsights
