import Mathlib.Data.List.Basic
import Tangle.Generation
import Tangle.Proofs.Text.Unquoting

/-!
The footer of a generated source. Whatever the name of the input, the footer is an empty line and
two lines of comment, and the name can be read back from it. A footer starts at the third line break
from the end, so a source tells its footer and with it the name of its input.
-/

namespace Tangle

open Text

/-- The footer for any choice of the characters that stand for themselves in a quoted name. -/
def footerWith (plain : Char → Bool) (name : String) : String :=
  "\n// This file is generated from " ++ String.ofList (quoteChars plain name.toList) ++ " by " ++
    toolName ++ ".\n// " ++ toolReference ++ "\n"

theorem footer_eq_footerWith : footer = footerWith isPlain := rfl

def footerLead : List Char := "This file is generated from ".toList

def inputLine (plain : Char → Bool) (name : String) : List Char :=
  footerLead ++ (quoteChars plain name.toList ++ " by godown.".toList)

theorem toList_footerWith (plain : Char → Bool) (name : String) :
    (footerWith plain name).toList =
      '\n' :: ("// ".toList ++ inputLine plain name ++
        '\n' :: ("// ".toList ++ toolReference.toList ++ ['\n'])) := by
  have opening : "\n// This file is generated from ".toList =
      '\n' :: ("// ".toList ++ footerLead) := by decide
  have turning : " by ".toList ++ (toolName.toList ++ ".\n// ".toList) =
      " by godown.".toList ++ '\n' :: "// ".toList := by decide
  have ending : "\n".toList = ['\n'] := by decide
  unfold footerWith inputLine
  calc _ = "\n// This file is generated from ".toList ++ (quoteChars plain name.toList ++
        ((" by ".toList ++ (toolName.toList ++ ".\n// ".toList)) ++
          (toolReference.toList ++ "\n".toList))) := by
        simp only [String.toList_append, String.toList_ofList, List.append_assoc]
    _ = '\n' :: ("// ".toList ++ footerLead) ++ (quoteChars plain name.toList ++
        ((" by godown.".toList ++ '\n' :: "// ".toList) ++ (toolReference.toList ++ ['\n']))) := by
        rw [opening, turning, ending]
    _ = _ := by simp only [List.append_assoc, List.cons_append]

/-- The name that a footer tells: what is in quotes after its first words. -/
def inputName? (footer : String) : Option String :=
  (List.isPrefixOf? ('\n' :: ("// ".toList ++ footerLead)) footer.toList).bind fun rest =>
    (unquote rest).map fun found => String.ofList found.1

theorem inputName?_footerWith (plain : Char → Bool) (name : String) :
    inputName? (footerWith plain name) = some name := by
  have lead : List.isPrefixOf? ('\n' :: ("// ".toList ++ footerLead))
      (footerWith plain name).toList = some (quoteChars plain name.toList ++
        (" by godown.".toList ++ '\n' :: ("// ".toList ++ toolReference.toList ++ ['\n']))) := by
    rw [List.isPrefixOf?_eq_some_iff_append_eq, toList_footerWith, inputLine]
    simp only [List.append_assoc, List.cons_append]
  rw [inputName?, lead, Option.bind_some, unquote_quoteChars, Option.map_some, String.ofList_toList]

theorem break_not_mem_inputLine (plain : Char → Bool) (name : String) :
    '\n' ∉ inputLine plain name := by
  have lead : '\n' ∉ footerLead := by decide
  have tail : '\n' ∉ " by godown.".toList := by decide
  rw [inputLine, List.mem_append, List.mem_append, not_or, not_or]
  exact ⟨lead, break_not_mem_quoteChars plain _, tail⟩

theorem break_not_mem_toolReference : '\n' ∉ toolReference.toList := by decide

theorem append_inj_of_count {α : Type} [DecidableEq α] {separator : α}
    {before others after rest : List α}
    (same : before ++ separator :: after = others ++ separator :: rest)
    (counted : after.count separator = rest.count separator) : before = others ∧ after = rest := by
  have nothing : ∀ {between after rest : List α}, separator :: after = between ++ separator :: rest →
      after.count separator = rest.count separator → between = [] ∧ after = rest := by
    intro between after rest same counted
    cases between with
    | nil => exact ⟨rfl, (List.cons.inj same).2⟩
    | cons first between =>
      rw [List.cons_append, List.cons.injEq] at same
      rw [same.2, List.count_append, List.count_cons_self] at counted
      omega
  rcases List.append_eq_append_iff.mp same with ⟨between, later, parts⟩ | ⟨between, later, parts⟩
  · obtain ⟨rfl, tails⟩ := nothing parts counted
    exact ⟨by rw [later, List.append_nil], tails⟩
  · obtain ⟨rfl, tails⟩ := nothing parts counted.symm
    exact ⟨by rw [later, List.append_nil], tails.symm⟩

theorem count_tail_footerWith (plain : Char → Bool) (name : String) :
    (footerWith plain name).toList.tail.count '\n' = 2 := by
  have slashes : '\n' ∉ "// ".toList := by decide
  rw [toList_footerWith, List.tail_cons]
  simp only [List.count_append, List.count_cons_self, List.count_nil,
    List.count_eq_zero.mpr slashes, List.count_eq_zero.mpr (break_not_mem_inputLine plain name),
    List.count_eq_zero.mpr break_not_mem_toolReference]

theorem footerWith_eq_cons (plain : Char → Bool) (name : String) :
    (footerWith plain name).toList = '\n' :: (footerWith plain name).toList.tail := by
  rw [toList_footerWith, List.tail_cons]

/--
A footer is an empty line and two lines of comment, and tells the name of the input: there are
exactly three line breaks in it, whatever is in the name, and reading it gives the name back. So a
source with its footer tells both the code and the name, for any choice of plain characters.
-/
theorem footer_tells_input (plain : Char → Bool) :
    footer = footerWith isPlain ∧
    (∀ name, (footerWith plain name).toList.count '\n' = 3 ∧
      (∃ first second, '\n' ∉ first ∧ '\n' ∉ second ∧ (footerWith plain name).toList =
        '\n' :: ("// ".toList ++ first ++ '\n' :: ("// ".toList ++ second ++ ['\n']))) ∧
      inputName? (footerWith plain name) = some name) ∧
    Function.Injective (footerWith plain) ∧
    ∀ code other name input, code ++ footerWith plain name = other ++ footerWith plain input →
      code = other ∧ name = input := by
  have injective : Function.Injective (footerWith plain) := by
    intro name input same
    have told := congrArg inputName? same
    rw [inputName?_footerWith, inputName?_footerWith] at told
    exact Option.some.inj told
  refine ⟨footer_eq_footerWith, fun name => ⟨?_, ?_, ?_⟩, injective, ?_⟩
  · rw [footerWith_eq_cons, List.count_cons_self, count_tail_footerWith]
  · exact ⟨inputLine plain name, toolReference.toList, break_not_mem_inputLine plain name,
      break_not_mem_toolReference, toList_footerWith plain name⟩
  · exact inputName?_footerWith plain name
  · intro code other name input same
    have lists := congrArg String.toList same
    rw [String.toList_append, String.toList_append, footerWith_eq_cons plain name,
      footerWith_eq_cons plain input] at lists
    have counted := (count_tail_footerWith plain name).trans (count_tail_footerWith plain input).symm
    obtain ⟨codes, tails⟩ := append_inj_of_count lists counted
    refine ⟨String.toList_inj.mp codes, injective (String.toList_inj.mp ?_)⟩
    rw [footerWith_eq_cons plain name, footerWith_eq_cons plain input, tails]

end Tangle
