import HanaInsights.Proofs.Decimal
import HanaInsights.Proofs.Files
import HanaInsights.Publish.File
set_option autoImplicit false

/-!
Where runs are saved. The name of a file has no slash and is no dots alone, so it stands right in
the directory whatever the host is called; and the second at its end is told apart from the host in
front of it, even from one that is called like a file itself.
-/

namespace HanaInsights

namespace FileTree

/-- Nothing has changed but that there are new directories, and what stands where the path leads. -/
def ChangesAt (path : String) (t t' : FileTree) : Prop :=
  ∀ place, t'.entry? place = t.entry? place ∨
    (t.entry? place = none ∧ t'.entry? place = some .directory) ∨
    ∃ goal, t'.leadsTo path = .ok goal ∧ fullName place = fullName goal

theorem AddsDirectories.changesAt {t t' : FileTree} (h : AddsDirectories t t') (path : String) :
    ChangesAt path t t' :=
  fun place => (h place).imp_right .inl

theorem AddsDirectories.changesAt_of_write {t made t' : FileTree} (h : AddsDirectories t made)
    {path : String} {bytes : List UInt8} (hwrite : made.write path bytes = .ok t') :
    ChangesAt path t t' := by
  obtain ⟨goal, executable, rfl, hleads, -⟩ := exists_put_of_write hwrite
  intro place
  by_cases hplace : place ≠ [] ∧ fullName goal = fullName place
  · exact .inr (.inr ⟨goal, hleads, hplace.2.symm⟩)
  · rw [entry?_put, if_neg hplace]
    exact (h place).imp_right .inl

end FileTree

theorem Run.changesAt_writeText (files : FileTree) (path text : String) :
    FileTree.ChangesAt path files (writeText files path text).1 := by
  have hadds := files.addsDirectories_growDirectories (parentOf path)
  rw [writeText]
  split <;> rename_i hgrown <;> rw [hgrown] at hadds
  next => exact hadds.changesAt path
  next =>
    split
    next => exact hadds.changesAt path
    next hwrite => exact hadds.changesAt_of_write hwrite

theorem Run.changesAt_save (files : FileTree) (format : OutputFormat) (path : String) (run : Run)
    (words : Wording) : FileTree.ChangesAt path files (run.save files format path words).1 := by
  rw [save]
  split
  next => exact (FileTree.AddsDirectories.refl files).changesAt path
  next text _ => exact changesAt_writeText files path text

namespace FilePublisher

theorem value_publish (p : FilePublisher) (files : FileTree) (run : Run) (words : Wording) :
    (p.publish files run words).value = run.save files p.format (p.pathFor run) words := by
  rw [publish]
  split
  next hsave => exact hsave.symm
  next => rfl

def shownHost (hostname : String) : String :=
  String.ofList (hostname.toList.map fun c => if c.isAlphanum ∨ c = '-' then c else '_')

theorem isPlainHostChar_iff {c : Char} :
    isPlainHostChar c = true ↔ c.isAlphanum = true ∨ c = '-' := by
  have hdigit : isDigit c = c.isDigit := rfl
  have hlower : (decide ('a' ≤ c) && decide (c ≤ 'z')) = c.isLower := rfl
  have hupper : (decide ('A' ≤ c) && decide (c ≤ 'Z')) = c.isUpper := (Bool.decide_and _ _).symm
  have halphanum : c.isAlphanum = (c.isUpper || c.isLower || c.isDigit) := rfl
  rw [isPlainHostChar, hdigit, hlower, hupper, halphanum]
  simp only [Bool.or_eq_true, beq_iff_eq]
  tauto

theorem toList_shownHost (hostname : String) :
    (shownHost hostname).toList = hostPart hostname := by
  simp only [shownHost, hostPart, String.toList_ofList, isPlainHostChar_iff]

/-- One part of a path, of plain characters up to the only dot and the extension behind it. -/
structure IsFileName (format : OutputFormat) (name : String) : Prop where
  single : Path.parts name = [name]
  proper : name ≠ "" ∧ name ≠ "." ∧ name ≠ ".."
  oneDot : name.toList.count '.' = 1
  plain : ∃ stem, name = stem ++ "." ++ format.extension ∧
    ∀ c ∈ stem.toList, c.isAlphanum = true ∨ c = '-' ∨ c = '_'

def stemChars (run : Run) : List Char :=
  hostPart run.hostname ++ "_insights_".toList ++ Nat.toDigits 10 run.generatedAt

theorem plain_of_mem_stemChars {run : Run} {c : Char} (h : c ∈ stemChars run) :
    c.isAlphanum = true ∨ c = '-' ∨ c = '_' := by
  simp only [stemChars, hostPart, List.mem_append, List.mem_map] at h
  rcases h with (⟨d, -, rfl⟩ | h) | h
  · split
    next hplain => exact (isPlainHostChar_iff.1 hplain).imp_right .inl
    next => exact .inr (.inr rfl)
  · have hinfix : "_insights_".toList.all fun c => c.isAlphanum || c == '_' := by rfl
    have hc := List.all_eq_true.1 hinfix c h
    rw [Bool.or_eq_true, beq_iff_eq] at hc
    exact hc.imp_right .inr
  · have hdigit : c.isDigit = true := isDigit_of_mem_toDigits h
    exact .inl (by rw [Char.isAlphanum, hdigit, Bool.or_true])

theorem toList_fileName (format : OutputFormat) (run : Run) :
    (fileName format run).toList = stemChars run ++ '.' :: format.extension.toList := by
  simp [fileName, fileNameChars, stemChars]

theorem fileName_eq (format : OutputFormat) (run : Run) :
    fileName format run = String.ofList (stemChars run) ++ "." ++ format.extension := by
  simp [← String.toList_inj, toList_fileName]

theorem not_mem_extension (format : OutputFormat) :
    '/' ∉ format.extension.toList ∧ '.' ∉ format.extension.toList := by
  cases format <;> decide

theorem not_mem_stemChars (run : Run) : '/' ∉ stemChars run ∧ '.' ∉ stemChars run := by
  constructor
  · intro h
    exact absurd (plain_of_mem_stemChars h) (by decide)
  · intro h
    exact absurd (plain_of_mem_stemChars h) (by decide)

theorem slash_not_mem_fileName (format : OutputFormat) (run : Run) :
    '/' ∉ (fileName format run).toList := by
  rw [toList_fileName]
  simp [not_mem_stemChars run, not_mem_extension format]

theorem isFileName_fileName (format : OutputFormat) (run : Run) :
    IsFileName format (fileName format run) := by
  have hlength : 5 ≤ (fileName format run).toList.length := by
    have hextension : format.extension.toList.length = 4 := by cases format <;> rfl
    simp [toList_fileName, hextension]
  have hlonger : ∀ short : String, short.toList.length < 5 → fileName format run ≠ short := by
    rintro short hshort rfl
    omega
  exact {
    single := Path.parts_of_not_mem (slash_not_mem_fileName format run)
    proper := ⟨hlonger "" (by decide), hlonger "." (by decide), hlonger ".." (by decide)⟩
    oneDot := by
      rw [toList_fileName, List.count_append, List.count_cons_self,
        List.count_eq_zero.2 (not_mem_stemChars run).2,
        List.count_eq_zero.2 (not_mem_extension format).2]
    plain := ⟨String.ofList (stemChars run), fileName_eq format run, fun c hc =>
      plain_of_mem_stemChars (by rwa [String.toList_ofList] at hc)⟩ }

theorem getLast?_front (run : Run) :
    ∀ c ∈ (hostPart run.hostname ++ "_insights_".toList).getLast?, isDigit c = false := by
  have hlast : "_insights_".toList.getLast? = some '_' := by decide
  rw [List.getLast?_append, hlast, Option.some_or]
  intro c hc
  obtain rfl := Option.some.inj hc
  rfl

theorem stemChars_inj {run other : Run} :
    stemChars run = stemChars other ↔
      run.generatedAt = other.generatedAt ∧ shownHost run.hostname = shownHost other.hostname := by
  rw [stemChars, stemChars, append_toDigits_inj (getLast?_front run) (getLast?_front other),
    List.append_left_inj, ← toList_shownHost, ← toList_shownHost, String.toList_inj, and_comm]

theorem fileName_inj {format : OutputFormat} {run other : Run} :
    fileName format run = fileName format other ↔
      run.generatedAt = other.generatedAt ∧ shownHost run.hostname = shownHost other.hostname := by
  rw [← stemChars_inj, fileName_eq, fileName_eq, String.append_left_inj, String.append_left_inj,
    String.ofList_inj]

theorem pathFor_inj (p : FilePublisher) {run other : Run} :
    p.pathFor run = p.pathFor other ↔
      run.generatedAt = other.generatedAt ∧ shownHost run.hostname = shownHost other.hostname := by
  rw [pathFor, pathFor, Path.join_inj (slash_not_mem_fileName p.format run)
    (slash_not_mem_fileName p.format other), fileName_inj]

/-- The path of a run leads right into the directory, publishing touches no other file, and runs
share a path only if they are of one second and their hosts are shown alike. -/
theorem run_files_stay_apart (p : FilePublisher) (run : Run) :
    (∃ name, IsFileName p.format name ∧ p.pathFor run = Path.join p.directory name ∧
      ∀ (t : FileTree) goal, t.leadsTo (p.pathFor run) = .ok goal →
        ∃ inside, t.leadsTo p.directory = .ok inside ∧ goal = inside ++ [name]) ∧
    (∀ files words, FileTree.ChangesAt (p.pathFor run) files (p.publish files run words).value.1) ∧
    ∀ other, p.pathFor run = p.pathFor other ↔
      run.generatedAt = other.generatedAt ∧
        shownHost run.hostname = shownHost other.hostname := by
  have hname := isFileName_fileName p.format run
  refine ⟨⟨fileName p.format run, hname, rfl, fun t goal hgoal => ?_⟩, fun files words => ?_,
    fun other => p.pathFor_inj⟩
  · exact FileTree.exists_of_leadsTo_join (slash_not_mem_fileName p.format run) hname.proper hgoal
  · rw [value_publish]
    exact Run.changesAt_save files p.format (p.pathFor run) run words

def climbingRun : Run where
  generatedAt := 9
  hostname := "../db_insights_7"
  rulesEvaluated := 1
  knowledgeBaseKeys := 0
  insights := Keyed.empty
  diagnostics := []

theorem run_files_of_climbing_host :
    let p : FilePublisher := ⟨"out/", .json⟩
    let after := (p.publish {} climbingRun).value.1
    (∃ name inside, p.pathFor climbingRun = Path.join "out/" name ∧
      after.leadsTo "out/" = .ok inside ∧
      after.leadsTo (p.pathFor climbingRun) = .ok (inside ++ [name])) ∧
    p.pathFor climbingRun = p.pathFor { climbingRun with hostname := "é:/db.insights\\7" } ∧
    p.pathFor climbingRun ≠
      p.pathFor { climbingRun with generatedAt := 7, hostname := "../db" } := by
  intro p after
  obtain ⟨⟨name, -, hpath, hinside⟩, -, hclash⟩ := run_files_stay_apart p climbingRun
  have hleads : after.leadsTo (p.pathFor climbingRun) =
      .ok ["out", "___db_insights_7_insights_9.json"] := by decide +kernel
  obtain ⟨inside, hdirectory, hgoal⟩ := hinside after _ hleads
  refine ⟨⟨name, inside, hpath, hdirectory, hgoal ▸ hleads⟩, (hclash _).2 ⟨rfl, by decide +kernel⟩,
    fun hsame => ?_⟩
  exact absurd ((hclash _).1 hsame).1 (by decide)

end FilePublisher
end HanaInsights
