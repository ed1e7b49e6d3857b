import Mathlib.Data.List.Basic
import Tangle.Document.Outline
import Tangle.Document.Role

/-!
What an ordered tree says when it is read from the top down: its plain text, the first leaf on
the way down, the first node of a kind on the way that never turns back, and from these the group
that a list item opens and the topic that a heading opens.
-/

namespace Tangle

def Label.ownText (label : Label) : String :=
  if label.kind.isLeaf then label.literal.getD "" else ""

def Group.ofLabel? (text : String) : Option Group := all.find? (·.label == text)

theorem Group.mem_all (group : Group) : group ∈ all := by
  cases group <;> decide

theorem Group.ofLabel?_eq_some {text : String} {group : Group} :
    ofLabel? text = some group ↔ text = group.label := by
  constructor
  · intro found
    unfold ofLabel? at found
    have same := List.find?_some found
    exact (eq_of_beq same).symm
  · rintro rfl
    cases group <;> decide

/-- What stands under a heading. -/
inductive Topic where
  | file
  | function
  | other
  deriving DecidableEq, Repr

namespace Topic

def ofToken : Option String → Topic
  | none => other
  | some token =>
    if token = functionOpening then function
    else if fileSuffix.toList.isSuffixOf token.toList then file
    else other

theorem ofToken_eq_function {token : Option String} :
    ofToken token = function ↔ token = some functionOpening := by
  cases token with
  | none => simp [ofToken]
  | some token =>
    rw [ofToken, Option.some.injEq]
    split_ifs <;> simp_all

theorem ofToken_eq_file {token : Option String} :
    ofToken token = file ↔ ∃ name, token = some name ∧
      fileSuffix.toList.isSuffixOf name.toList := by
  have apart : ¬fileSuffix.toList <:+ functionOpening.toList := by decide
  cases token with
  | none => simp [ofToken]
  | some token =>
    rw [ofToken]
    split_ifs <;> simp_all

end Topic

namespace Outline

def label : Outline → Label
  | node label _ => label

def children : Outline → List Outline
  | node _ children => children

def kind (outline : Outline) : Kind := outline.label.kind

mutual

def leafText : Outline → String
  | node label children => label.ownText ++ leafTexts children

def leafTexts : List Outline → String
  | [] => ""
  | outline :: rest => outline.leafText ++ leafTexts rest

end

def firstLeafText? : Outline → Option String
  | node _ [] => none
  | node _ (first :: _) =>
    if first.kind.isLeaf then first.label.literal else first.firstLeafText?

mutual

/-- The first node of a kind from a node on; `beside` is the answer for the siblings after it. -/
def seek? (kind : Kind) (beside : Option Outline) : Outline → Option Outline
  | node label children =>
    if label.kind = kind then some (node label children)
    else if children.isEmpty then beside
    else seekAmong? kind children

def seekAmong? (kind : Kind) : List Outline → Option Outline
  | [] => none
  | outline :: rest => outline.seek? kind (seekAmong? kind rest)

end

/-- The first node of a kind on the way that goes down where it can, else to the next sibling. -/
def findDescendant? (kind : Kind) (outline : Outline) : Option Outline :=
  seekAmong? kind outline.children

def group? (outline : Outline) : Option Group :=
  if outline.kind = .listItem then
    (outline.children.head?.bind firstLeafText?).bind Group.ofLabel?
  else none

def topic (outline : Outline) : Topic := .ofToken outline.firstLeafText?

@[simp] theorem label_node (label : Label) (children : List Outline) :
    (node label children).label = label := rfl

@[simp] theorem children_node (label : Label) (children : List Outline) :
    (node label children).children = children := rfl

@[simp] theorem kind_node (label : Label) (children : List Outline) :
    (node label children).kind = label.kind := rfl

theorem leafText_of_not_isLeaf {outline : Outline} (plain : outline.kind.isLeaf = false) :
    outline.leafText = leafTexts outline.children := by
  cases outline with
  | node label children =>
    rw [kind_node] at plain
    rw [leafText, Label.ownText, plain, if_neg Bool.false_ne_true, String.empty_append,
      children_node]

theorem seek?_eq (kind : Kind) (beside : Option Outline) (outline : Outline) :
    outline.seek? kind beside =
      if outline.kind = kind then some outline
      else if outline.children.isEmpty then beside
      else outline.findDescendant? kind := by
  cases outline with
  | node label children => rw [seek?, kind_node, children_node, findDescendant?, children_node]

theorem group?_of_firstLeafText? {outline : Outline} (item : outline.kind = .listItem)
    {text : String} (first : outline.children.head?.bind firstLeafText? = some text) :
    outline.group? = Group.ofLabel? text := by
  rw [group?, if_pos item, first, Option.bind_some]

end Outline

end Tangle
