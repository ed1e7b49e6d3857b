import Tangle.Text.Pieces
import Tangle.Text.Utf8

/-!
Paths as bytes. A path is where it starts from and the segments between its slashes, empty ones
included, so that it keeps its spelling. Two paths are equal as places to look if their components
are: empty segments and dots are no components, except for a dot at the very start.
-/

namespace Tangle

abbrev FileName := List UInt8

namespace FileName

def slash : UInt8 := 0x2F

def dot : FileName := [0x2E]

def dotDot : FileName := [0x2E, 0x2E]

end FileName

/-- Where a path starts from: the working directory, the same written out as a dot, or the root. -/
inductive Anchor where
  | bare
  | here
  | root
  deriving DecidableEq, Repr

structure Path where
  anchor : Anchor
  segments : List FileName
  deriving DecidableEq, Repr

inductive Component where
  | root
  | here
  | up
  | name (name : FileName)
  deriving DecidableEq, Repr

def Component.key : Component → List Nat
  | .root => [0]
  | .here => [1]
  | .up => [2]
  | .name bytes => 3 :: bytes.map (·.toNat)

namespace Path

open FileName

def splitSlashes (bytes : List UInt8) : List FileName := Text.pieces slash bytes

def joinSlashes (segments : List FileName) : List UInt8 := Text.joined slash segments

def ofBytes (bytes : List UInt8) : Path :=
  match bytes with
  | [] => ⟨.bare, []⟩
  | [b] => if b = slash then ⟨.root, []⟩ else if [b] = dot then ⟨.here, []⟩ else ⟨.bare, [[b]]⟩
  | a :: b :: rest =>
    if a = slash then ⟨.root, splitSlashes (b :: rest)⟩
    else if [a] = dot ∧ b = slash then ⟨.here, splitSlashes rest⟩
    else ⟨.bare, splitSlashes (a :: b :: rest)⟩

def toBytes (path : Path) : List UInt8 :=
  match path.anchor, path.segments with
  | .bare, segments => joinSlashes segments
  | .root, segments => slash :: joinSlashes segments
  | .here, [] => dot
  | .here, segments => dot ++ slash :: joinSlashes segments

def ofString (text : String) : Path := ofBytes (Text.encode text)

def display (path : Path) : String := Text.lossy path.toBytes

def isEmpty (path : Path) : Bool := path == ⟨.bare, []⟩

def counts (segment : FileName) : Bool := segment != [] && segment != dot

def dropEndWhile (p : FileName → Bool) (segments : List FileName) : List FileName :=
  (segments.reverse.dropWhile p).reverse

def core (segments : List FileName) : List FileName := dropEndWhile (!counts ·) segments

def components (path : Path) : List Component :=
  let start := match path.anchor with
    | .bare => []
    | .here => [.here]
    | .root => [.root]
  start ++ (path.segments.filter counts).map fun segment =>
    if segment = dotDot then .up else .name segment

def fileName? (path : Path) : Option FileName :=
  (core path.segments).getLast?.filter (· != dotDot)

/-- The path without its last component, as it is spelled up to there. -/
def parent? (path : Path) : Option Path :=
  match core path.segments, path.anchor with
  | [], .here => some ⟨.bare, []⟩
  | [], _ => none
  | segments, anchor => some ⟨anchor, core segments.dropLast⟩

def ancestorsFrom (anchor : Anchor) : List FileName → List Path
  | [] => []
  | segment :: before =>
    if counts segment then ⟨anchor, (segment :: before).reverse⟩ :: ancestorsFrom anchor before
    else ancestorsFrom anchor before

def ancestors (path : Path) : List Path := ancestorsFrom path.anchor path.segments.reverse

def push (path : Path) (name : FileName) : Path :=
  if path.segments.getLast? = some [] then ⟨path.anchor, path.segments.dropLast ++ [name]⟩
  else ⟨path.anchor, path.segments ++ [name]⟩

/-- Puts a name in place of the last component, or after the path if that is no name. -/
def withFileName (path : Path) (name : FileName) : Path :=
  if path.fileName?.isSome then (path.parent?.getD path).push name else path.push name

/-- Paths are ordered by their components from the left. -/
def key (path : Path) : List (List Nat) := path.components.map Component.key

def precedes (left right : Path) : Bool := !decide (right.key < left.key)

def same (left right : Path) : Bool := left.components == right.components

theorem joinSlashes_splitSlashes (bytes : List UInt8) : joinSlashes (splitSlashes bytes) = bytes :=
  Text.joined_pieces slash bytes

/-- A path keeps the spelling it was read from. -/
theorem toBytes_ofBytes (bytes : List UInt8) : (ofBytes bytes).toBytes = bytes := by
  match bytes with
  | [] => rfl
  | [b] =>
    by_cases isSlash : b = slash
    · simp [ofBytes, toBytes, isSlash, joinSlashes, Text.joined]
    · by_cases isDot : [b] = dot
      · simp [ofBytes, toBytes, isSlash, isDot]
      · simp [ofBytes, toBytes, isSlash, isDot, joinSlashes, Text.joined]
  | a :: b :: rest =>
    by_cases isSlash : a = slash
    · simp [ofBytes, toBytes, isSlash, joinSlashes_splitSlashes]
    · by_cases isHere : [a] = dot ∧ b = slash
      · obtain ⟨isDot, isSecond⟩ := isHere
        have present : splitSlashes rest ≠ [] := Text.pieces_ne_nil slash rest
        have written : toBytes ⟨.here, splitSlashes rest⟩ = dot ++ slash :: rest := by
          unfold toBytes
          split
          · next h => cases h
          · next h => cases h
          · next h => exact absurd h present
          · exact congrArg (dot ++ slash :: ·) (joinSlashes_splitSlashes rest)
        have read : ofBytes (a :: b :: rest) = ⟨.here, splitSlashes rest⟩ := by
          rw [ofBytes, if_neg isSlash, if_pos ⟨isDot, isSecond⟩]
        rw [read, written, ← isDot, ← isSecond]
        rfl
      · simp [ofBytes, toBytes, isSlash, isHere, joinSlashes_splitSlashes]

end Path

end Tangle
