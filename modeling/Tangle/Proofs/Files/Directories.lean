import Mathlib.Logic.Basic
import Tangle.Proofs.Files.Walking

/-!
Making directories. A directory is made after those above it, and one that is there already stays.
Main result (`makeDirectories_spec`): files are left as they are, and once directories have been
made, or could not be made, making them again changes nothing and ends in the same way, whatever
files have been written in between.
-/

namespace Tangle

namespace FileSystem

open FileName

theorem counts_eq_true {segment : FileName} :
    Path.counts segment = true ↔ ¬(segment = [] ∨ segment = dot) := by
  simp [Path.counts]

section Locating

variable {fs later : FileSystem}

theorem startOf_of_working (same : later.working = fs.working) (path : Path) :
    startOf later.working path = startOf fs.working path := by
  rw [same]

theorem startOf_segments (place : Location) (anchor : Anchor) (segments : List FileName) :
    startOf place ⟨anchor, segments⟩ = startOf place ⟨anchor, []⟩ :=
  rfl

theorem locate_of_segments {anchor : Anchor} {segments : List FileName} (present : segments ≠ []) :
    fs.locate ⟨anchor, segments⟩ =
      fs.walkFrom linkBound (startOf fs.working ⟨anchor, segments⟩) segments := by
  have named : Path.isEmpty ⟨anchor, segments⟩ = false := by simp [Path.isEmpty, present]
  rw [locate, named]
  rfl

theorem isDirectory_iff {path : Path} :
    fs.isDirectory path = true ↔
      ∃ place, fs.locate path = .ok place ∧ fs.shapeAt place = some .directory := by
  rw [isDirectory]
  cases fs.locate path with
  | error cause => simp
  | ok place => simp [isDirectoryAt_iff]

theorem Extends.locate {path : Path} {place : Location} (kept : Extends fs later)
    (found : fs.locate path = .ok place) : later.locate path = .ok place := by
  rw [FileSystem.locate] at found ⊢
  split_ifs at found ⊢
  rw [kept.working]
  exact kept.walkFrom found

theorem Extends.isDirectory {path : Path} (kept : Extends fs later)
    (opens : fs.isDirectory path = true) : later.isDirectory path = true := by
  obtain ⟨place, found, directory⟩ := isDirectory_iff.mp opens
  exact isDirectory_iff.mpr ⟨place, kept.locate found, kept.shapes directory⟩

theorem Rewrites.isDirectory {path : Path} (kept : Rewrites fs later) :
    later.isDirectory path = true ↔ fs.isDirectory path = true := by
  refine ⟨fun opens => ?_, kept.toExtends.isDirectory⟩
  obtain ⟨place, found, directory⟩ := isDirectory_iff.mp opens
  refine isDirectory_iff.mpr ⟨place, ?_, (kept.shapeAt_eq_some (by simp)).mp directory⟩
  rw [locate] at found ⊢
  split_ifs at found ⊢
  rw [kept.working] at found
  rcases kept.walkFrom linkBound (startOf fs.working path) path.segments with
    same | ⟨_, refused | ⟨other, reached, file⟩⟩
  · rw [← same, found]
  · rw [refused] at found
    cases found
  · obtain rfl : other = place := Except.ok.inj (reached.symm.trans found)
    rw [file] at directory
    cases directory

theorem walkFrom_concat {n : Nat} {start place : Location} {segments : List FileName}
    {last : FileName} (walked : fs.walkFrom n start (segments ++ [last]) = .ok place) :
    ∃ parent, fs.walkFrom n start segments = .ok parent ∧
      fs.shapeAt parent = some .directory ∧
      (Path.counts last = false → place = parent) ∧
      (Path.counts last = true → last = dotDot ∨ fs.shapeAt (parent ++ [last]) ≠ none) := by
  cases before : fs.walkFrom n start segments with
  | error cause =>
    rw [walkFrom_append_of_error before] at walked
    cases walked
  | ok parent =>
    obtain ⟨m, _, goes⟩ := exists_walkFrom_append before
    rw [goes, walkFrom_cons] at walked
    refine ⟨parent, rfl, ?_⟩
    by_cases inside : fs.shapeAt parent = some .directory
    · rw [turn_of_inside inside] at walked
      refine ⟨inside, fun skipped => ?_, fun counted => ?_⟩
      · have dots : last = [] ∨ last = dot := by
          rw [← Bool.not_eq_true, counts_eq_true, not_not] at skipped
          exact skipped
        rw [if_pos dots] at walked
        simp only [walkFrom_nil] at walked
        exact (Except.ok.inj walked).symm
      · rw [if_neg (counts_eq_true.mp counted)] at walked
        by_cases up : last = dotDot
        · exact .inl up
        · rw [if_neg up] at walked
          refine .inr fun absent => ?_
          rw [absent] at walked
          cases walked
    · rw [turn_of_outside inside] at walked
      cases walked

theorem walkFrom_concat_of_held {n : Nat} {start directory : Location} {segments : List FileName}
    {last : FileName} {shape : Shape} (walked : fs.walkFrom n start segments = .ok directory)
    (inside : fs.shapeAt directory = some .directory) (counted : Path.counts last = true)
    (down : last ≠ dotDot) (held : fs.shapeAt (directory ++ [last]) = some shape)
    (direct : ∀ target, shape ≠ .link target) :
    fs.walkFrom n start (segments ++ [last]) = .ok (directory ++ [last]) := by
  obtain ⟨m, _, onward⟩ := exists_walkFrom_append walked
  rw [onward, walkFrom_cons, turn_of_inside inside, if_neg (counts_eq_true.mp counted), if_neg down,
    held]
  cases shape with
  | link target => exact absurd rfl (direct target)
  | file => exact walkFrom_nil m _
  | directory => exact walkFrom_nil m _

theorem isDirectory_above {anchor : Anchor} {before : List FileName} {parent : Location}
    {path : Path}
    (walked : fs.walkFrom linkBound (startOf fs.working ⟨anchor, []⟩) before.reverse = .ok parent)
    (inside : fs.shapeAt parent = some .directory)
    (nearest : path ∈ (Path.ancestorsFrom anchor before).head?) : fs.isDirectory path = true := by
  induction before with
  | nil => cases nearest
  | cons segment before ih =>
    rw [Path.ancestorsFrom] at nearest
    by_cases counted : Path.counts segment = true
    · rw [if_pos counted, List.head?_cons, Option.mem_some_iff] at nearest
      subst nearest
      refine isDirectory_iff.mpr ⟨parent, ?_, inside⟩
      rw [locate_of_segments (by simp)]
      exact walked
    · rw [if_neg counted] at nearest
      rw [List.reverse_cons] at walked
      obtain ⟨same, walked, _, stays, _⟩ := walkFrom_concat walked
      obtain rfl := stays (by simpa using counted)
      exact ih walked nearest

end Locating

section Making

variable {fs later : FileSystem}

theorem splitLast?_concat {before : List FileName} {last : FileName}
    (counted : Path.counts last = true) : splitLast? (before ++ [last]) = some (before, last) := by
  have plain : last ≠ [] := by
    rintro rfl
    cases counted
  simp [splitLast?, Path.dropEndWhile, plain]

theorem makeDirectory_concat {anchor : Anchor} {before : List FileName} {last : FileName}
    (counted : Path.counts last = true) :
    fs.makeDirectory ⟨anchor, before ++ [last]⟩ =
      match fs.walkFrom linkBound (startOf fs.working ⟨anchor, before ++ [last]⟩) before with
      | .error cause => .error cause
      | .ok parent =>
        if fs.shapeAt parent ≠ some .directory then .error .notDirectory
        else if last = dotDot ∨ fs.shapeAt (parent ++ [last]) ≠ none then .error .alreadyExists
        else .ok (fs.put (parent ++ [last]) .directory) := by
  have named : Path.isEmpty ⟨anchor, before ++ [last]⟩ = false := by simp [Path.isEmpty]
  have plain : last ≠ dot := by
    rintro rfl
    cases counted
  simp only [makeDirectory, makeEntry, named, splitLast?_concat counted, locateParent,
    Bool.false_eq_true, if_false]
  cases fs.walkFrom linkBound (startOf fs.working ⟨anchor, before ++ [last]⟩) before with
  | error cause => rfl
  | ok parent =>
    by_cases inside : fs.shapeAt parent = some .directory
    · simp only [bind, Except.bind, isDirectoryAt_iff.mpr inside, if_true, inside, ne_eq,
        not_true, if_false]
      refine if_congr ?_ rfl rfl
      simp [isDots, plain, Option.isSome_iff_ne_none, get?_eq_none]
    · simp [bind, Except.bind, isDirectoryAt_eq_false inside, inside]

theorem makeDirectory_of_locate {anchor : Anchor} {before : List FileName} {last : FileName}
    {place : Location} (counted : Path.counts last = true)
    (found : fs.locate ⟨anchor, before ++ [last]⟩ = .ok place) :
    fs.makeDirectory ⟨anchor, before ++ [last]⟩ = .error .alreadyExists := by
  rw [locate_of_segments (by simp)] at found
  obtain ⟨parent, walked, inside, _, taken⟩ := walkFrom_concat found
  rw [makeDirectory_concat counted, walked]
  simp [inside, taken counted]

theorem of_makeDirectory_ok {anchor : Anchor} {before : List FileName} {last : FileName}
    {made : FileSystem} (counted : Path.counts last = true)
    (ok : fs.makeDirectory ⟨anchor, before ++ [last]⟩ = .ok made) :
    Extends fs made ∧ (∀ place, made.fileAt? place = fs.fileAt? place) ∧
      made.isDirectory ⟨anchor, before ++ [last]⟩ = true := by
  rw [makeDirectory_concat counted] at ok
  cases walked : fs.walkFrom linkBound (startOf fs.working ⟨anchor, before ++ [last]⟩) before with
  | error cause =>
    rw [walked] at ok
    cases ok
  | ok parent =>
    rw [walked] at ok
    simp only at ok
    split_ifs at ok with inside taken
    obtain rfl := Except.ok.inj ok
    rw [not_not] at inside
    obtain ⟨down, absent⟩ := not_or.mp taken
    rw [not_not] at absent
    have inner : parent ++ [last] ≠ [] := by simp
    have kept : Extends fs (fs.put (parent ++ [last]) .directory) := .put inner (.inl absent)
    have there : (fs.put (parent ++ [last]) .directory).shapeAt (parent ++ [last]) =
        some .directory := shapeAt_put_same fs .directory inner
    refine ⟨kept, fun place => ?_, isDirectory_iff.mpr ⟨parent ++ [last], ?_, there⟩⟩
    · by_cases same : place = parent ++ [last]
      · subst same
        rw [fileAt?, get?_put_same fs _ inner, fileAt?, get?_eq_none.mpr absent]
      · exact fileAt?_put_other fs _ same
    · rw [locate_of_segments (by simp), startOf_of_working kept.working]
      exact walkFrom_concat_of_held (kept.walkFrom walked) (kept.shapes inside) counted down there
        (by simp)

/-- Files that have been written let no directory be made that could not be made before. -/
theorem Rewrites.makeDirectory_error {anchor : Anchor} {before : List FileName} {last : FileName}
    {cause : Cause} (counted : Path.counts last = true) (kept : Rewrites fs later)
    (failed : fs.makeDirectory ⟨anchor, before ++ [last]⟩ = .error cause) :
    ∃ other, later.makeDirectory ⟨anchor, before ++ [last]⟩ = .error other ∧
      (cause ≠ .notFound → other = cause) := by
  rw [makeDirectory_concat counted] at failed
  rw [makeDirectory_concat counted, kept.working]
  cases walked : fs.walkFrom linkBound (startOf fs.working ⟨anchor, before ++ [last]⟩) before with
  | error first =>
    rw [walked] at failed
    obtain rfl := Except.error.inj failed
    rcases kept.walkFrom linkBound (startOf fs.working ⟨anchor, before ++ [last]⟩) before with
      same | ⟨missing, refused | ⟨reached, arrived, file⟩⟩
    · exact ⟨first, by rw [same, walked], fun _ => rfl⟩
    · obtain rfl : first = .notFound := Except.error.inj (walked.symm.trans missing)
      exact ⟨.notDirectory, by rw [refused], fun other => absurd rfl other⟩
    · obtain rfl : first = .notFound := Except.error.inj (walked.symm.trans missing)
      exact ⟨.notDirectory, by rw [arrived]; simp [file], fun other => absurd rfl other⟩
  | ok parent =>
    rw [walked] at failed
    refine ⟨cause, ?_, fun _ => rfl⟩
    rw [kept.toExtends.walkFrom walked]
    simp only at failed ⊢
    have directory : later.shapeAt parent = some .directory ↔ fs.shapeAt parent = some .directory :=
      kept.shapeAt_eq_some (by simp)
    split_ifs at failed with outside taken
    · rw [if_pos (by rw [ne_eq, directory]; exact outside)]
      exact failed
    · have still : last = dotDot ∨ later.shapeAt (parent ++ [last]) ≠ none := by
        refine taken.imp_right fun present => ?_
        obtain ⟨shape, held⟩ := Option.ne_none_iff_exists'.mp present
        rw [kept.shapes held]
        simp
      rw [if_neg (by rw [ne_eq, directory]; exact outside), if_pos still]
      exact failed

end Making

section Chains

variable {fs : FileSystem}

/-- What making directories, given nearest first, comes to. -/
structure Settled (fs : FileSystem) (chain : List Path) (begun : FileSystem)
    (failure : Option Cause) : Prop where
  extended : Extends fs begun
  files : ∀ place, begun.fileAt? place = fs.fileAt? place
  opens : ∀ path ∈ chain.head?, begun.isDirectory path = true ↔ failure = none
  again : ∀ later, Rewrites begun later →
    ∃ other, later.makeDirectories chain = (later, other) ∧ (other = none ↔ failure = none)

theorem makeDirectories_cons_of_locate {anchor : Anchor} {before : List FileName} {last : FileName}
    {place : Location} (above : List Path) (counted : Path.counts last = true)
    (found : fs.locate ⟨anchor, before ++ [last]⟩ = .ok place) :
    fs.makeDirectories (⟨anchor, before ++ [last]⟩ :: above) =
      (fs, if fs.isDirectory ⟨anchor, before ++ [last]⟩ then none else some .alreadyExists) := by
  rw [makeDirectories, makeDirectory_of_locate counted found]

theorem makeDirectories_cons_of_isDirectory {anchor : Anchor} {before : List FileName}
    {last : FileName} (above : List Path) (counted : Path.counts last = true)
    (opens : fs.isDirectory ⟨anchor, before ++ [last]⟩ = true) :
    fs.makeDirectories (⟨anchor, before ++ [last]⟩ :: above) = (fs, none) := by
  obtain ⟨place, found, _⟩ := isDirectory_iff.mp opens
  rw [makeDirectories_cons_of_locate above counted found, if_pos opens]

theorem makeDirectories_cons_of_error {path : Path} {above : List Path} {cause : Cause}
    (failed : fs.makeDirectory path = .error cause) (shut : fs.isDirectory path = false)
    (unchanged : cause = .notFound → ∃ other, fs.makeDirectories above = (fs, other)) :
    ∃ other, fs.makeDirectories (path :: above) = (fs, some other) := by
  by_cases missing : cause = .notFound
  · obtain ⟨other, made⟩ := unchanged missing
    subst missing
    cases other with
    | some other => exact ⟨other, by rw [makeDirectories, failed, made]⟩
    | none => exact ⟨.notFound, by simp [makeDirectories, failed, made, shut]⟩
  · refine ⟨cause, ?_⟩
    cases cause <;> simp_all [makeDirectories]

theorem makeDirectories_cons_of_other {path : Path} {cause : Cause}
    (failed : fs.makeDirectory path = .error cause) (present : cause ≠ .notFound)
    (above : List Path) :
    fs.makeDirectories (path :: above) =
      (fs, if fs.isDirectory path then none else some cause) := by
  cases cause <;> simp_all [makeDirectories]

theorem settled_cons {anchor : Anchor} {before : List FileName} {last : FileName}
    {above : List Path} {begun : FileSystem} {failure : Option Cause}
    (counted : Path.counts last = true) (extended : Extends fs begun)
    (files : ∀ place, begun.fileAt? place = fs.fileAt? place)
    (opens : begun.isDirectory ⟨anchor, before ++ [last]⟩ = true ↔ failure = none)
    (fails : begun.isDirectory ⟨anchor, before ++ [last]⟩ = false → ∀ later, Rewrites begun later →
      ∃ cause, later.makeDirectory ⟨anchor, before ++ [last]⟩ = .error cause ∧
        (cause = .notFound → ∃ other, later.makeDirectories above = (later, other))) :
    Settled fs (⟨anchor, before ++ [last]⟩ :: above) begun failure := by
  refine ⟨extended, files, by simpa using opens, fun later kept => ?_⟩
  cases opened : begun.isDirectory ⟨anchor, before ++ [last]⟩ with
  | true =>
    have still := makeDirectories_cons_of_isDirectory above counted (kept.isDirectory.mpr opened)
    exact ⟨none, still, by simp [opens.mp opened]⟩
  | false =>
    obtain ⟨cause, failed, unchanged⟩ := fails opened later kept
    have shut : later.isDirectory ⟨anchor, before ++ [last]⟩ = false := by
      rw [← Bool.not_eq_true, kept.isDirectory, opened]
      simp
    obtain ⟨other, made⟩ := makeDirectories_cons_of_error failed shut unchanged
    exact ⟨some other, made, by simp [← opens, opened]⟩

theorem exists_makeDirectory_error {anchor : Anchor} {before : List FileName} {last : FileName}
    {path : Path} (counted : Path.counts last = true)
    (nearest : path ∈ (Path.ancestorsFrom anchor before).head?)
    (shut : fs.isDirectory path = false) :
    fs.isDirectory ⟨anchor, before.reverse ++ [last]⟩ = false ∧
      ∃ cause, fs.makeDirectory ⟨anchor, before.reverse ++ [last]⟩ = .error cause := by
  have blocked : ∀ {parent},
      fs.walkFrom linkBound (startOf fs.working ⟨anchor, []⟩) before.reverse = .ok parent →
      fs.shapeAt parent ≠ some .directory := by
    intro parent walked inside
    rw [isDirectory_above walked inside nearest] at shut
    cases shut
  constructor
  · rw [← Bool.not_eq_true]
    intro opens
    obtain ⟨place, found, _⟩ := isDirectory_iff.mp opens
    rw [locate_of_segments (by simp)] at found
    obtain ⟨parent, walked, inside, _⟩ := walkFrom_concat found
    exact blocked walked inside
  · rw [makeDirectory_concat counted]
    cases walked : fs.walkFrom linkBound
        (startOf fs.working ⟨anchor, before.reverse ++ [last]⟩) before.reverse with
    | error cause => exact ⟨cause, rfl⟩
    | ok parent => exact ⟨.notDirectory, if_pos (blocked walked)⟩

theorem Settled.concat {anchor : Anchor} {before : List FileName} {last : FileName}
    (counted : Path.counts last = true)
    (ih : Settled fs (Path.ancestorsFrom anchor before)
      (fs.makeDirectories (Path.ancestorsFrom anchor before)).1
      (fs.makeDirectories (Path.ancestorsFrom anchor before)).2) :
    Settled fs (⟨anchor, before.reverse ++ [last]⟩ :: Path.ancestorsFrom anchor before)
      (fs.makeDirectories (⟨anchor, before.reverse ++ [last]⟩ ::
        Path.ancestorsFrom anchor before)).1
      (fs.makeDirectories (⟨anchor, before.reverse ++ [last]⟩ ::
        Path.ancestorsFrom anchor before)).2 := by
  rw [makeDirectories]
  cases tried : fs.makeDirectory ⟨anchor, before.reverse ++ [last]⟩ with
  | ok made =>
    obtain ⟨extended, files, opens⟩ := of_makeDirectory_ok counted tried
    exact settled_cons counted extended files (by simp [opens]) (by simp [opens])
  | error cause =>
    by_cases missing : cause = .notFound
    · subst missing
      cases above : fs.makeDirectories (Path.ancestorsFrom anchor before) with
      | mk begun failure =>
      rw [above] at ih
      cases failure with
      | some failure =>
        obtain ⟨path, nearest⟩ : ∃ path, path ∈ (Path.ancestorsFrom anchor before).head? := by
          cases chain : Path.ancestorsFrom anchor before with
          | nil => rw [chain] at above; cases above
          | cons path rest => exact ⟨path, rfl⟩
        have shut : begun.isDirectory path = false := by
          rw [← Bool.not_eq_true, ih.opens path nearest]
          simp
        obtain ⟨closed, cause, failed⟩ := exists_makeDirectory_error counted nearest shut
        refine settled_cons counted ih.extended ih.files (by simp [closed]) ?_
        intro _ later kept
        obtain ⟨other, again, _⟩ := kept.makeDirectory_error counted failed
        obtain ⟨result, unchanged, _⟩ := ih.again later kept
        exact ⟨other, again, fun _ => ⟨result, unchanged⟩⟩
      | none =>
        cases retried : begun.makeDirectory ⟨anchor, before.reverse ++ [last]⟩ with
        | ok made =>
          obtain ⟨extended, files, opens⟩ := of_makeDirectory_ok counted retried
          simp only [retried]
          exact settled_cons counted (ih.extended.trans extended)
            (fun place => (files place).trans (ih.files place)) (by simp [opens]) (by simp [opens])
        | error cause =>
          simp only [retried]
          refine settled_cons counted ih.extended ih.files (by simp) ?_
          intro _ later kept
          obtain ⟨other, again, _⟩ := kept.makeDirectory_error counted retried
          obtain ⟨result, unchanged, _⟩ := ih.again later kept
          exact ⟨other, again, fun _ => ⟨result, unchanged⟩⟩
    · have result :=
        makeDirectories_cons_of_other tried missing (Path.ancestorsFrom anchor before)
      rw [makeDirectories, tried] at result
      rw [result]
      refine settled_cons counted (.refl fs) (fun _ => rfl) (by simp) ?_
      intro _ later kept
      obtain ⟨other, again, same⟩ := kept.makeDirectory_error counted tried
      exact ⟨other, again, fun gone => absurd ((same missing).symm.trans gone) missing⟩

/-- Directories, once made or not, stay so while files are written. -/
theorem makeDirectories_spec (fs : FileSystem) (anchor : Anchor) (reversed : List FileName) :
    Settled fs (Path.ancestorsFrom anchor reversed)
      (fs.makeDirectories (Path.ancestorsFrom anchor reversed)).1
      (fs.makeDirectories (Path.ancestorsFrom anchor reversed)).2 := by
  induction reversed with
  | nil => exact ⟨.refl fs, fun _ => rfl, nofun, fun later _ => ⟨none, rfl, Iff.rfl⟩⟩
  | cons last before ih =>
    rw [Path.ancestorsFrom, List.reverse_cons]
    by_cases counted : Path.counts last = true
    · rw [if_pos counted]
      exact ih.concat counted
    · rw [if_neg counted]
      exact ih

theorem exists_drop_ancestorsFrom (anchor : Anchor) (reversed : List FileName) (k : Nat) :
    ∃ shorter, (Path.ancestorsFrom anchor reversed).drop k = Path.ancestorsFrom anchor shorter := by
  induction reversed generalizing k with
  | nil => exact ⟨[], by rw [Path.ancestorsFrom, List.drop_nil]⟩
  | cons last before ih =>
    cases k with
    | zero => exact ⟨last :: before, List.drop_zero⟩
    | succ k =>
      rw [Path.ancestorsFrom]
      by_cases counted : Path.counts last = true
      · rw [if_pos counted, List.drop_succ_cons]
        exact ih k
      · rw [if_neg counted]
        exact ih (k + 1)

theorem walkFrom_ne_notFound_of_makeDirectory {anchor : Anchor} {before : List FileName}
    {last : FileName} (counted : Path.counts last = true)
    (present : fs.makeDirectory ⟨anchor, before ++ [last]⟩ ≠ .error .notFound) :
    fs.walkFrom linkBound (startOf fs.working ⟨anchor, []⟩) before ≠ .error .notFound := by
  intro missing
  apply present
  rw [makeDirectory_concat counted, startOf_segments, missing]

theorem exists_makeDirectory_error_of_walk {anchor : Anchor} {before : List FileName}
    {last : FileName} (counted : Path.counts last = true)
    (known : fs.walkFrom linkBound (startOf fs.working ⟨anchor, []⟩) (before ++ [last]) ≠
      .error .notFound) :
    ∃ cause ≠ .notFound, fs.makeDirectory ⟨anchor, before ++ [last]⟩ = .error cause := by
  rw [makeDirectory_concat counted, startOf_segments]
  cases walked : fs.walkFrom linkBound (startOf fs.working ⟨anchor, []⟩) before with
  | error cause =>
    refine ⟨cause, ?_, rfl⟩
    rintro rfl
    exact known (walkFrom_append_of_error walked [last])
  | ok parent =>
    simp only
    split_ifs with outside taken
    · exact ⟨.notDirectory, by simp, rfl⟩
    · exact ⟨.alreadyExists, by simp, rfl⟩
    · rw [not_not] at outside
      obtain ⟨down, absent⟩ := not_or.mp taken
      rw [not_not] at absent
      obtain ⟨m, _, onward⟩ := exists_walkFrom_append walked
      refine absurd ?_ known
      rw [onward, walkFrom_cons, turn_of_inside outside, if_neg (counts_eq_true.mp counted),
        if_neg down, absent]

/-- Nothing is made above a path unless the way there breaks off for want of an entry. -/
theorem makeDirectories_drop_of_known {anchor : Anchor} {before : List FileName}
    (known : fs.walkFrom linkBound (startOf fs.working ⟨anchor, []⟩) before.reverse ≠
      .error .notFound) (k : Nat) :
    (fs.makeDirectories ((Path.ancestorsFrom anchor before).drop k)).1 = fs := by
  induction before generalizing k with
  | nil => rw [Path.ancestorsFrom, List.drop_nil, makeDirectories]
  | cons last before ih =>
    rw [List.reverse_cons] at known
    have earlier : fs.walkFrom linkBound (startOf fs.working ⟨anchor, []⟩) before.reverse ≠
        .error .notFound :=
      fun missing => known (walkFrom_append_of_error missing [last])
    rw [Path.ancestorsFrom, List.reverse_cons]
    by_cases counted : Path.counts last = true
    · rw [if_pos counted]
      cases k with
      | zero =>
        obtain ⟨cause, present, failed⟩ := exists_makeDirectory_error_of_walk counted known
        rw [List.drop_zero, makeDirectories_cons_of_other failed present]
      | succ k => exact ih earlier k
    · rw [if_neg counted]
      exact ih earlier k

theorem makeDirectories_on_way {anchor : Anchor} {reversed more : List FileName} {place : Location}
    (walked : fs.walkFrom linkBound (startOf fs.working ⟨anchor, []⟩) (reversed.reverse ++ more) =
      .ok place) (k : Nat) :
    (fs.makeDirectories ((Path.ancestorsFrom anchor reversed).drop k)).1 = fs := by
  apply makeDirectories_drop_of_known
  intro missing
  rw [walkFrom_append_of_error missing] at walked
  cases walked

/-- Making directories comes to the same from a state in which some of them have been made. -/
structure Resumes (fs middle : FileSystem) (chain : List Path) : Prop where
  files : (middle.makeDirectories chain).1 = (fs.makeDirectories chain).1
  failure : (middle.makeDirectories chain).2 = none ↔ (fs.makeDirectories chain).2 = none

theorem Resumes.refl (fs : FileSystem) (chain : List Path) : Resumes fs fs chain := ⟨rfl, Iff.rfl⟩

theorem Resumes.concat {middle : FileSystem} {anchor : Anchor} {before : List FileName}
    {last : FileName} (counted : Path.counts last = true)
    (missing : fs.makeDirectory ⟨anchor, before.reverse ++ [last]⟩ = .error .notFound)
    (ih : Resumes fs middle (Path.ancestorsFrom anchor before)) :
    Resumes fs middle
      (⟨anchor, before.reverse ++ [last]⟩ :: Path.ancestorsFrom anchor before) := by
  obtain ⟨files, failure⟩ := ih
  cases first : fs.makeDirectories (Path.ancestorsFrom anchor before) with
  | mk begun refused =>
  cases second : middle.makeDirectories (Path.ancestorsFrom anchor before) with
  | mk resumed again =>
  rw [first, second] at files failure
  obtain rfl : resumed = begun := files
  by_cases lost : middle.makeDirectory ⟨anchor, before.reverse ++ [last]⟩ = .error .notFound
  · constructor
    all_goals
      rw [makeDirectories, makeDirectories, missing, lost, first, second]
      cases refused <;> cases again <;> simp_all
  · have known := walkFrom_ne_notFound_of_makeDirectory counted lost
    obtain rfl : resumed = middle := by
      have unmade := makeDirectories_drop_of_known known 0
      rw [List.drop_zero, second] at unmade
      exact unmade
    cases again with
    | none =>
      obtain rfl : refused = none := failure.mp rfl
      have same : resumed.makeDirectories
          (⟨anchor, before.reverse ++ [last]⟩ :: Path.ancestorsFrom anchor before) =
          fs.makeDirectories
            (⟨anchor, before.reverse ++ [last]⟩ :: Path.ancestorsFrom anchor before) := by
        rw [makeDirectories, makeDirectories, missing, first]
        cases tried : resumed.makeDirectory ⟨anchor, before.reverse ++ [last]⟩ with
        | ok made => simp [tried]
        | error cause => cases cause <;> simp_all
      exact ⟨by rw [same], by rw [same]⟩
    | some cause =>
      obtain ⟨path, nearest⟩ : ∃ path, path ∈ (Path.ancestorsFrom anchor before).head? := by
        cases chain : Path.ancestorsFrom anchor before with
        | nil => rw [chain] at second; cases second
        | cons path rest => exact ⟨path, rfl⟩
      have settled := makeDirectories_spec resumed anchor before
      rw [second] at settled
      have shut : resumed.isDirectory path = false := by
        rw [← Bool.not_eq_true, settled.opens path nearest]
        simp
      obtain ⟨closed, other, failed⟩ := exists_makeDirectory_error counted nearest shut
      have present : other ≠ .notFound := by
        rintro rfl
        exact lost failed
      obtain ⟨reason, rfl⟩ := Option.ne_none_iff_exists'.mp (mt failure.mpr (by simp))
      have here : resumed.makeDirectories
          (⟨anchor, before.reverse ++ [last]⟩ :: Path.ancestorsFrom anchor before) =
          (resumed, some other) := by
        rw [makeDirectories_cons_of_other failed present, closed]
        rfl
      have there : fs.makeDirectories
          (⟨anchor, before.reverse ++ [last]⟩ :: Path.ancestorsFrom anchor before) =
          (resumed, some reason) := by
        rw [makeDirectories, missing, first]
      exact ⟨by rw [here, there], by simp [here, there]⟩

/-- Directories that have been made in part are made in full by making them again. -/
theorem resumes_drop (fs : FileSystem) (anchor : Anchor) (reversed : List FileName) (k : Nat) :
    Resumes fs (fs.makeDirectories ((Path.ancestorsFrom anchor reversed).drop k)).1
      (Path.ancestorsFrom anchor reversed) := by
  induction reversed generalizing k with
  | nil =>
    rw [Path.ancestorsFrom, List.drop_nil]
    exact .refl fs []
  | cons last before ih =>
    cases k with
    | zero =>
      rw [List.drop_zero]
      have settled := makeDirectories_spec fs anchor (last :: before)
      obtain ⟨other, again, same⟩ := settled.again _ (.refl _)
      exact ⟨by rw [again], by rw [again]; exact same⟩
    | succ k =>
      rw [Path.ancestorsFrom, List.reverse_cons]
      by_cases counted : Path.counts last = true
      · rw [if_pos counted, List.drop_succ_cons]
        by_cases missing : fs.makeDirectory ⟨anchor, before.reverse ++ [last]⟩ = .error .notFound
        · exact (ih k).concat counted missing
        · have known := walkFrom_ne_notFound_of_makeDirectory counted missing
          rw [makeDirectories_drop_of_known known k]
          exact .refl fs _
      · rw [if_neg counted]
        exact ih (k + 1)

end Chains

end FileSystem

end Tangle
