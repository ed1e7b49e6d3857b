import Mathlib.Tactic.SplitIfs
import Tangle.Files.Write

/-!
Where paths lead. A path is taken segment by segment, and what a segment leads to depends on the
shapes of entries only, not on the content of files. So a path that leads somewhere still leads
there when entries have been added, and where only files have been written a path leads nowhere else
than before except to one of these files.
-/

namespace Tangle

inductive Shape where
  | file
  | directory
  | link (target : Path)
  deriving DecidableEq

def Entry.shape : Entry → Shape
  | .file _ => .file
  | .directory => .directory
  | .link target => .link target

/-- What one segment of a path leads to. -/
inductive Turn where
  | refused (cause : Cause)
  | onward (place : Location)
  | link (target : Path)

namespace FileSystem

open FileName

def shapeAt (fs : FileSystem) (place : Location) : Option Shape := (fs.get? place).map Entry.shape

def fileAt? (fs : FileSystem) (place : Location) : Option ByteArray :=
  match fs.get? place with
  | some (.file content) => some content
  | _ => none

section Shapes

variable {fs : FileSystem} {place : Location}

theorem get?_eq_directory :
    fs.get? place = some .directory ↔ fs.shapeAt place = some .directory := by
  rw [shapeAt]
  rcases fs.get? place with _ | (_ | _ | _) <;> simp [Entry.shape]

theorem get?_eq_none : fs.get? place = none ↔ fs.shapeAt place = none := by
  rw [shapeAt, Option.map_eq_none_iff]

theorem isDirectoryAt_iff : fs.isDirectoryAt place = true ↔ fs.shapeAt place = some .directory := by
  rw [isDirectoryAt, beq_iff_eq, get?_eq_directory]

theorem isDirectoryAt_eq_false (outside : fs.shapeAt place ≠ some .directory) :
    fs.isDirectoryAt place = false := by
  rw [← Bool.not_eq_true, isDirectoryAt_iff]
  exact outside

theorem fileAt?_eq_some {content : ByteArray} :
    fs.fileAt? place = some content ↔ fs.get? place = some (.file content) := by
  rw [fileAt?]
  rcases fs.get? place with _ | (_ | _ | _) <;> simp

theorem shapeAt_of_fileAt? {content : ByteArray} (held : fs.fileAt? place = some content) :
    fs.shapeAt place = some .file := by
  rw [shapeAt, fileAt?_eq_some.mp held]
  rfl

end Shapes

def turn (fs : FileSystem) (place : Location) (segment : FileName) : Turn :=
  if fs.shapeAt place ≠ some .directory then .refused .notDirectory
  else if segment = [] ∨ segment = dot then .onward place
  else if segment = dotDot then .onward place.dropLast
  else match fs.shapeAt (place ++ [segment]) with
    | none => .refused .notFound
    | some (.link target) => .link target
    | some _ => .onward (place ++ [segment])

theorem turn_of_outside {fs : FileSystem} {place : Location}
    (outside : fs.shapeAt place ≠ some .directory) (segment : FileName) :
    fs.turn place segment = .refused .notDirectory :=
  if_pos outside

theorem turn_of_inside {fs : FileSystem} {place : Location}
    (inside : fs.shapeAt place = some .directory) (segment : FileName) :
    fs.turn place segment =
      if segment = [] ∨ segment = dot then .onward place
      else if segment = dotDot then .onward place.dropLast
      else match fs.shapeAt (place ++ [segment]) with
        | none => .refused .notFound
        | some (.link target) => .link target
        | some _ => .onward (place ++ [segment]) :=
  if_neg (by simp [inside])

section Walks

variable {fs : FileSystem}

theorem advance_cons (follow : Location → List FileName → Except Cause Location)
    (place : Location) (segment : FileName) (rest : List FileName) :
    fs.advance follow place (segment :: rest) = match fs.turn place segment with
      | .refused cause => .error cause
      | .onward next => fs.advance follow next rest
      | .link target => follow (startOf place target) (target.segments ++ rest) := by
  rw [advance, turn]
  by_cases inside : fs.shapeAt place = some .directory
  · rw [isDirectoryAt_iff.mpr inside]
    simp only [inside, Bool.not_true, Bool.false_eq_true, if_false, ne_eq, not_true]
    split_ifs
    · rfl
    · rfl
    · rw [shapeAt]
      rcases fs.get? (place ++ [segment]) with _ | (_ | _ | _) <;> rfl
  · simp [isDirectoryAt_eq_false inside, inside]

theorem walkFrom_nil (n : Nat) (place : Location) : fs.walkFrom (n + 1) place [] = .ok place := by
  rw [walkFrom, advance]

theorem walkFrom_cons (n : Nat) (place : Location) (segment : FileName) (rest : List FileName) :
    fs.walkFrom (n + 1) place (segment :: rest) = match fs.turn place segment with
      | .refused cause => .error cause
      | .onward next => fs.walkFrom (n + 1) next rest
      | .link target => fs.walkFrom n (startOf place target) (target.segments ++ rest) := by
  rw [walkFrom, advance_cons]
  rfl

/-- A walk goes on with fewer segments, or with fewer links to go through. -/
theorem walk_induction {motive : Nat → Location → List FileName → Prop}
    (exhausted : ∀ place segments, motive 0 place segments)
    (arrived : ∀ n place, motive (n + 1) place [])
    (step : ∀ n place segment rest, (∀ next, motive (n + 1) next rest) →
      (∀ next segments, motive n next segments) → motive (n + 1) place (segment :: rest))
    (n : Nat) (place : Location) (segments : List FileName) : motive n place segments := by
  induction n generalizing place segments with
  | zero => exact exhausted place segments
  | succ n outer =>
    induction segments generalizing place with
    | nil => exact arrived n place
    | cons segment rest inner => exact step n place segment rest inner outer

theorem walkFrom_append_of_error {n : Nat} {place : Location} {segments : List FileName}
    {cause : Cause} (failed : fs.walkFrom n place segments = .error cause) (more : List FileName) :
    fs.walkFrom n place (segments ++ more) = .error cause := by
  induction n, place, segments using walk_induction with
  | exhausted place segments => exact failed
  | arrived n place => cases failed
  | step n place segment rest inner outer =>
    rw [List.cons_append, walkFrom_cons]
    rw [walkFrom_cons] at failed
    split at failed
    · exact failed
    · exact inner _ failed
    · rw [← List.append_assoc]
      exact outer _ _ failed

/-- A walk goes through some segments, and from where these lead through the others. -/
theorem exists_walkFrom_append {n : Nat} {place reached : Location} {segments : List FileName}
    (walked : fs.walkFrom n place segments = .ok reached) :
    ∃ m < n, ∀ more, fs.walkFrom n place (segments ++ more) = fs.walkFrom (m + 1) reached more := by
  induction n, place, segments using walk_induction with
  | exhausted place segments => cases walked
  | arrived n place =>
    rw [walkFrom_nil] at walked
    obtain rfl := Except.ok.inj walked
    exact ⟨n, Nat.lt_succ_self n, fun more => rfl⟩
  | step n place segment rest inner outer =>
    rw [walkFrom_cons] at walked
    cases taken : fs.turn place segment with
    | refused cause => rw [taken] at walked; cases walked
    | onward next =>
      rw [taken] at walked
      obtain ⟨m, fewer, same⟩ := inner next walked
      refine ⟨m, fewer, fun more => ?_⟩
      rw [List.cons_append, walkFrom_cons, taken]
      exact same more
    | link target =>
      rw [taken] at walked
      obtain ⟨m, fewer, same⟩ := outer _ _ walked
      refine ⟨m, by omega, fun more => ?_⟩
      rw [List.cons_append, walkFrom_cons, taken]
      simp only [← List.append_assoc]
      exact same more

end Walks

/-- A file system in which nothing has been taken away or become something else. -/
structure Extends (fs later : FileSystem) : Prop where
  working : later.working = fs.working
  shapes : ∀ {place shape}, fs.shapeAt place = some shape → later.shapeAt place = some shape

/-- A file system in which files have been written, over files or where nothing was. -/
structure Rewrites (fs later : FileSystem) : Prop extends Extends fs later where
  fresh : ∀ {place}, fs.shapeAt place = none →
    later.shapeAt place = none ∨ later.shapeAt place = some .file

theorem shapeAt_put_same (fs : FileSystem) {place : Location} (entry : Entry)
    (inside : place ≠ []) : (fs.put place entry).shapeAt place = some entry.shape := by
  rw [shapeAt, get?_put_same fs entry inside]
  rfl

theorem shapeAt_put_other (fs : FileSystem) {place other : Location} (entry : Entry)
    (apart : other ≠ place) : (fs.put place entry).shapeAt other = fs.shapeAt other := by
  rw [shapeAt, get?_put_other fs entry apart]
  rfl

theorem fileAt?_put_same (fs : FileSystem) {place : Location} (content : ByteArray)
    (inside : place ≠ []) : (fs.put place (.file content)).fileAt? place = some content :=
  fileAt?_eq_some.mpr (get?_put_same fs _ inside)

theorem fileAt?_put_other (fs : FileSystem) {place other : Location} (entry : Entry)
    (apart : other ≠ place) : (fs.put place entry).fileAt? other = fs.fileAt? other := by
  rw [fileAt?, get?_put_other fs entry apart]
  rfl

section Changes

variable {fs middle later : FileSystem}

theorem Extends.refl (fs : FileSystem) : Extends fs fs := ⟨rfl, id⟩

theorem Extends.trans (first : Extends fs middle) (second : Extends middle later) :
    Extends fs later :=
  ⟨second.working.trans first.working, fun held => second.shapes (first.shapes held)⟩

theorem Extends.put {place : Location} {entry : Entry} (inside : place ≠ [])
    (free : fs.shapeAt place = none ∨ fs.shapeAt place = some entry.shape) :
    Extends fs (fs.put place entry) := by
  refine ⟨rfl, fun {other shape} held => ?_⟩
  by_cases same : other = place
  · subst same
    rcases free with absent | present
    · rw [absent] at held
      cases held
    · rw [shapeAt_put_same fs entry inside, ← present, held]
  · rw [shapeAt_put_other fs entry same, held]

theorem Rewrites.refl (fs : FileSystem) : Rewrites fs fs := ⟨.refl fs, .inl⟩

theorem Rewrites.put {place : Location} {content : ByteArray} (kept : Rewrites fs later)
    (inside : place ≠ []) (free : later.shapeAt place = none ∨ later.shapeAt place = some .file) :
    Rewrites fs (later.put place (.file content)) := by
  refine ⟨kept.toExtends.trans (.put inside free), fun {other} absent => ?_⟩
  by_cases same : other = place
  · subst same
    exact .inr (shapeAt_put_same later _ inside)
  · rw [shapeAt_put_other later _ same]
    exact kept.fresh absent

theorem Rewrites.shapeAt_eq_some {place : Location} {shape : Shape} (kept : Rewrites fs later)
    (other : shape ≠ .file) : later.shapeAt place = some shape ↔ fs.shapeAt place = some shape := by
  constructor
  · intro held
    cases before : fs.shapeAt place with
    | some first => rw [← kept.shapes before, held]
    | none => rcases kept.fresh before with absent | file <;> simp_all
  · exact kept.shapes

theorem Extends.turn {place : Location} {segment : FileName} {taken : Turn}
    (kept : Extends fs later) (goes : fs.turn place segment = taken)
    (free : ∀ cause, taken ≠ .refused cause) : later.turn place segment = taken := by
  by_cases inside : fs.shapeAt place = some .directory
  · rw [turn_of_inside inside] at goes
    rw [turn_of_inside (kept.shapes inside)]
    split_ifs at goes ⊢ with dots up
    · exact goes
    · exact goes
    · cases held : fs.shapeAt (place ++ [segment]) with
      | none =>
        rw [held] at goes
        exact absurd goes.symm (free _)
      | some shape =>
        rw [kept.shapes held, ← held]
        exact goes
  · rw [turn_of_outside inside] at goes
    exact absurd goes.symm (free _)

theorem Extends.walkFrom {n : Nat} {place reached : Location} {segments : List FileName}
    (kept : Extends fs later) (walked : fs.walkFrom n place segments = .ok reached) :
    later.walkFrom n place segments = .ok reached := by
  induction n, place, segments using walk_induction with
  | exhausted place segments => cases walked
  | arrived n place =>
    rw [walkFrom_nil] at walked ⊢
    exact walked
  | step n place segment rest inner outer =>
    rw [walkFrom_cons] at walked ⊢
    cases taken : fs.turn place segment with
    | refused cause => rw [taken] at walked; cases walked
    | onward next =>
      rw [taken] at walked
      rw [kept.turn taken (by simp)]
      exact inner next walked
    | link target =>
      rw [taken] at walked
      rw [kept.turn taken (by simp)]
      exact outer _ _ walked

theorem Rewrites.turn (kept : Rewrites fs later) (place : Location) (segment : FileName) :
    later.turn place segment = fs.turn place segment ∨
      fs.turn place segment = .refused .notFound ∧
        later.turn place segment = .onward (place ++ [segment]) ∧
        later.shapeAt (place ++ [segment]) = some .file := by
  by_cases inside : fs.shapeAt place = some .directory
  · rw [turn_of_inside inside, turn_of_inside (kept.shapes inside)]
    split_ifs with dots up
    · exact .inl rfl
    · exact .inl rfl
    · cases held : fs.shapeAt (place ++ [segment]) with
      | some shape => exact .inl (by rw [kept.shapes held])
      | none =>
        rcases kept.fresh held with absent | file
        · exact .inl (by rw [absent])
        · exact .inr (by simp [file])
  · have outside : later.shapeAt place ≠ some .directory :=
      fun held => inside ((kept.shapeAt_eq_some (by simp)).mp held)
    rw [turn_of_outside inside, turn_of_outside outside]
    exact .inl rfl

/-- Where a walk fails for want of an entry, it may now come upon a file that has been written. -/
theorem Rewrites.walkFrom (kept : Rewrites fs later) (n : Nat) (place : Location)
    (segments : List FileName) :
    later.walkFrom n place segments = fs.walkFrom n place segments ∨
      fs.walkFrom n place segments = .error .notFound ∧
        (later.walkFrom n place segments = .error .notDirectory ∨
          ∃ reached, later.walkFrom n place segments = .ok reached ∧
            later.shapeAt reached = some .file) := by
  induction n, place, segments using walk_induction with
  | exhausted place segments => exact .inl rfl
  | arrived n place => exact .inl (by rw [walkFrom_nil, walkFrom_nil])
  | step n place segment rest inner outer =>
    rw [walkFrom_cons, walkFrom_cons]
    rcases kept.turn place segment with same | ⟨missing, found, file⟩
    · rw [same]
      cases fs.turn place segment with
      | refused cause => exact .inl rfl
      | onward next => exact inner next
      | link target => exact outer _ _
    · rw [missing, found]
      refine .inr ⟨rfl, ?_⟩
      cases rest with
      | nil => exact .inr ⟨_, walkFrom_nil n _, file⟩
      | cons next more =>
        have outside : later.shapeAt (place ++ [segment]) ≠ some .directory := by simp [file]
        exact .inl (by simp only [walkFrom_cons, turn_of_outside outside])

end Changes

section Writing

variable {fs later : FileSystem}

theorem placeFor_nil (n : Nat) (place : Location) :
    fs.placeFor (n + 1) place [] = .error .isDirectory := by
  rw [placeFor, advanceToWrite]

theorem placeFor_of_outside {place : Location} (outside : fs.shapeAt place ≠ some .directory)
    (n : Nat) (segment : FileName) (rest : List FileName) :
    fs.placeFor (n + 1) place (segment :: rest) = .error .notDirectory := by
  rw [placeFor, advanceToWrite, isDirectoryAt_eq_false outside]
  rfl

theorem placeFor_of_inside {place : Location} (inside : fs.shapeAt place = some .directory)
    (n : Nat) (segment : FileName) (rest : List FileName) :
    fs.placeFor (n + 1) place (segment :: rest) =
      if segment = [] ∨ segment = dot then fs.placeFor (n + 1) place rest
      else if segment = dotDot then fs.placeFor (n + 1) place.dropLast rest
      else if rest ≠ [] ∧ rest.all (· == []) then .error .isDirectory
      else match fs.shapeAt (place ++ [segment]) with
        | none => if rest = [] then .ok (place ++ [segment]) else .error .notFound
        | some .file => if rest = [] then .ok (place ++ [segment]) else .error .notDirectory
        | some .directory => fs.placeFor (n + 1) (place ++ [segment]) rest
        | some (.link target) =>
          fs.placeFor n (startOf place target) (target.segments ++ rest) := by
  have accepted : fs.isDirectoryAt place = true := isDirectoryAt_iff.mpr inside
  rw [placeFor, advanceToWrite, accepted, shapeAt]
  simp only [Bool.not_true, Bool.false_eq_true, if_false, placeFor]
  rcases fs.get? (place ++ [segment]) with _ | (_ | _ | _) <;> rfl

theorem free_of_placeFor {n : Nat} {place target : Location} {segments : List FileName}
    (placed : fs.placeFor n place segments = .ok target) :
    target ≠ [] ∧ (fs.shapeAt target = none ∨ fs.shapeAt target = some .file) := by
  induction n, place, segments using walk_induction with
  | exhausted place segments => cases placed
  | arrived n place => rw [placeFor_nil] at placed; cases placed
  | step n place segment rest inner outer =>
    by_cases inside : fs.shapeAt place = some .directory
    · rw [placeFor_of_inside inside] at placed
      split at placed
      · exact inner _ placed
      split at placed
      · exact inner _ placed
      split at placed
      · cases placed
      · cases held : fs.shapeAt (place ++ [segment]) with
        | none =>
          simp only [held] at placed
          split_ifs at placed
          obtain rfl := Except.ok.inj placed
          exact ⟨by simp, .inl held⟩
        | some shape =>
          cases shape with
          | file =>
            simp only [held] at placed
            split_ifs at placed
            obtain rfl := Except.ok.inj placed
            exact ⟨by simp, .inr held⟩
          | directory =>
            simp only [held] at placed
            exact inner _ placed
          | link target =>
            simp only [held] at placed
            exact outer _ _ placed
    · rw [placeFor_of_outside inside] at placed
      cases placed

theorem Extends.walkFrom_of_placeFor {n : Nat} {place target : Location} {segments : List FileName}
    (kept : Extends fs later) (placed : fs.placeFor n place segments = .ok target)
    (file : later.shapeAt target = some .file) :
    later.walkFrom n place segments = .ok target := by
  induction n, place, segments using walk_induction with
  | exhausted place segments => cases placed
  | arrived n place => rw [placeFor_nil] at placed; cases placed
  | step n place segment rest inner outer =>
    by_cases inside : fs.shapeAt place = some .directory
    · rw [placeFor_of_inside inside] at placed
      rw [walkFrom_cons, turn_of_inside (kept.shapes inside)]
      by_cases dots : segment = [] ∨ segment = dot
      · rw [if_pos dots] at placed ⊢
        exact inner _ placed
      rw [if_neg dots] at placed ⊢
      by_cases up : segment = dotDot
      · rw [if_pos up] at placed ⊢
        exact inner _ placed
      rw [if_neg up] at placed ⊢
      split at placed
      · cases placed
      · cases held : fs.shapeAt (place ++ [segment]) with
        | none =>
          simp only [held] at placed
          split_ifs at placed with final
          obtain rfl := Except.ok.inj placed
          rw [file, final]
          exact walkFrom_nil n _
        | some shape =>
          rw [kept.shapes held]
          cases shape with
          | file =>
            simp only [held] at placed
            split_ifs at placed with final
            obtain rfl := Except.ok.inj placed
            rw [final]
            exact walkFrom_nil n _
          | directory =>
            simp only [held] at placed
            exact inner _ placed
          | link target =>
            simp only [held] at placed
            exact outer _ _ placed
    · rw [placeFor_of_outside inside] at placed
      cases placed

/-- Files that have been written do not change where a path is to be written. -/
theorem Rewrites.placeFor (kept : Rewrites fs later) (n : Nat) (place : Location)
    (segments : List FileName) :
    later.placeFor n place segments = fs.placeFor n place segments ∨
      fs.placeFor n place segments = .error .notFound ∧
        later.placeFor n place segments = .error .notDirectory := by
  induction n, place, segments using walk_induction with
  | exhausted place segments => exact .inl rfl
  | arrived n place => exact .inl (by rw [placeFor_nil, placeFor_nil])
  | step n place segment rest inner outer =>
    by_cases inside : fs.shapeAt place = some .directory
    · rw [placeFor_of_inside inside, placeFor_of_inside (kept.shapes inside)]
      by_cases dots : segment = [] ∨ segment = dot
      · rw [if_pos dots, if_pos dots]
        exact inner _
      rw [if_neg dots, if_neg dots]
      by_cases up : segment = dotDot
      · rw [if_pos up, if_pos up]
        exact inner _
      rw [if_neg up, if_neg up]
      by_cases slash : rest ≠ [] ∧ rest.all (· == [])
      · rw [if_pos slash, if_pos slash]
        exact .inl rfl
      · rw [if_neg slash, if_neg slash]
        cases held : fs.shapeAt (place ++ [segment]) with
        | none =>
          rcases kept.fresh held with absent | file
          · exact .inl (by rw [absent])
          · rw [file]
            by_cases final : rest = []
            · exact .inl (by simp [final])
            · exact .inr (by simp [final])
        | some shape =>
          rw [kept.shapes held]
          cases shape with
          | file => exact .inl rfl
          | directory => exact inner _
          | link target => exact outer _ _
    · have outside : later.shapeAt place ≠ some .directory :=
        fun held => inside ((kept.shapeAt_eq_some (by simp)).mp held)
      rw [placeFor_of_outside inside, placeFor_of_outside outside]
      exact .inl rfl

end Writing

end FileSystem

end Tangle
