import Tangle.Proofs.Path.Output
import Tangle.Settings

/-!
Documents and their sources keep apart. A path has one of some extensions exactly when the bytes of
its name are those of a text that ends so (`matchesExtension_iff`), which can be seen on the bytes
alone (`endsInBytes_encode`). A document with the default extension has a name with two endings, of
which its source keeps the first (`exists_stem`), in the same directory. Main result: no two such
documents have one source, and none of them is a source (`sources_never_collide`).
-/

namespace Tangle

/-- What an extension is without the dots that it begins with. -/
structure IsUndotted (extension ending : String) : Prop where
  dots : ∃ count, extension.toList = List.replicate count '.' ++ ending.toList
  bare : ending.toList.head? ≠ some '.'

theorem isUndotted_iff {extension ending : String} :
    IsUndotted extension ending ↔ extension.toList.dropWhile (· == '.') = ending.toList := by
  constructor
  · intro ⟨⟨count, parts⟩, bare⟩
    have dots : ∀ c ∈ List.replicate count '.', (c == '.') = true := by simp
    rw [parts, List.dropWhile_append_of_pos dots]
    cases rest : ending.toList with
    | nil => rfl
    | cons c later =>
      have other : ¬(c == '.') = true := by simpa [rest] using bare
      exact List.dropWhile_cons_of_neg other
  · intro dropped
    constructor
    · have dots : ∀ c ∈ extension.toList.takeWhile (· == '.'), c = '.' := by
        intro c member
        simpa using List.mem_takeWhile_imp (p := (· == '.')) member
      refine ⟨(extension.toList.takeWhile (· == '.')).length, ?_⟩
      rw [← List.eq_replicate_iff.mpr ⟨rfl, dots⟩, ← dropped, List.takeWhile_append_dropWhile]
    · intro first
      have other := List.head?_dropWhile_not (· == '.') extension.toList
      rw [dropped, first] at other
      exact absurd other (by decide)

def EndsWith (name ending : String) : Prop := ∃ stem, stem ≠ "" ∧ name = stem ++ "." ++ ending

theorem endsWith_iff {name ending : String} :
    EndsWith name ending ↔ ∃ stem, stem ≠ [] ∧ name.toList = stem ++ '.' :: ending.toList := by
  constructor
  · intro ⟨stem, present, whole⟩
    exact ⟨stem.toList, by simpa using present, by simp [whole]⟩
  · intro ⟨stem, present, whole⟩
    refine ⟨String.ofList stem, ?_, ?_⟩
    · simpa [← String.toList_inj] using present
    · simp [← String.toList_inj, whole]

theorem hasExtension_iff {name extension : String} :
    hasExtension name extension = true ↔
      ∃ ending, IsUndotted extension ending ∧ EndsWith name ending := by
  simp only [isUndotted_iff, endsWith_iff]
  rw [hasExtension, Bool.and_eq_true, decide_eq_true_eq, List.isSuffixOf_iff_suffix]
  constructor
  · intro ⟨long, stem, whole⟩
    refine ⟨String.ofList (extension.toList.dropWhile (· == '.')), by simp, stem, ?_, ?_⟩
    · intro empty
      rw [← whole, empty, List.nil_append] at long
      exact absurd long (lt_irrefl _)
    · simp [whole]
  · intro ⟨ending, undotted, stem, present, whole⟩
    have more := List.length_pos_iff.mpr present
    rw [undotted, whole, List.length_append]
    exact ⟨by omega, List.suffix_append _ _⟩

theorem outputName_append (stem : List Char) :
    outputName (stem ++ ".go.md".toList) = stem ++ ".go".toList := by
  have cut : ('.' :: formatExtension.toList).isSuffixOf? (stem ++ ".go.md".toList) =
      some (stem ++ ".go".toList) := by
    rw [List.isSuffixOf?_eq_some_iff_append_eq, List.append_assoc]
    rfl
  have ends : ".go".toList.isSuffixOf (stem ++ ".go".toList) = true :=
    List.isSuffixOf_iff_suffix.mpr (List.suffix_append _ _)
  rw [outputName, cut, Option.getD_some, if_pos ends]

section Bytes

open FileName

/--
What can be seen on the bytes of a name: there are more of them than a dot and the ending take, they
end with it, and those before it end with a dot.
-/
structure EndsInBytes (name ending : List UInt8) : Prop where
  long : ending.length + 1 < name.length
  ends : ending <:+ name
  dotted : dot <:+ name.take (name.length - ending.length)

theorem endsInBytes_iff {name ending : List UInt8} :
    EndsInBytes name ending ↔ ∃ stem, stem ≠ [] ∧ name = stem ++ 0x2E :: ending := by
  have before (start : List UInt8) :
      (start ++ ending).take ((start ++ ending).length - ending.length) = start := by
    rw [List.length_append, Nat.add_sub_cancel, List.take_left]
  constructor
  · intro ⟨long, ⟨start, parts⟩, dotted⟩
    rw [← parts, before] at dotted
    obtain ⟨stem, rfl⟩ := dotted
    refine ⟨stem, ?_, by rw [← parts, List.append_assoc]; rfl⟩
    intro empty
    have alone : dot.length = 1 := rfl
    rw [← parts, empty, List.nil_append, List.length_append, alone] at long
    omega
  · intro ⟨stem, present, whole⟩
    have parts : name = stem ++ dot ++ ending := by rw [whole, List.append_assoc]; rfl
    have more := List.length_pos_iff.mpr present
    rw [parts]
    refine ⟨?_, List.suffix_append _ _, ?_⟩
    · simp only [List.length_append, dot, List.length_singleton]
      omega
    · rw [before]
      exact List.suffix_append _ _

theorem endsInBytes_encode {name ending : String} :
    EndsInBytes (Text.encode name) (Text.encode ending) ↔ EndsWith name ending := by
  rw [endsInBytes_iff]
  constructor
  · intro ⟨bytes, present, whole⟩
    obtain ⟨stem, rest, parts, same, ends⟩ := Text.encode_eq_append_dot_iff.mp whole
    refine ⟨stem, ?_, by rw [parts, Text.encode_injective ends]⟩
    intro empty
    rw [same, empty] at present
    exact present Text.encode_empty
  · intro ⟨stem, present, whole⟩
    refine ⟨Text.encode stem, ?_, Text.encode_eq_append_dot_iff.mpr ⟨stem, ending, whole, rfl, rfl⟩⟩
    intro empty
    exact present (Text.encode_injective (empty.trans Text.encode_empty.symm))

end Bytes

namespace Path

open FileName

theorem matchesExtension_iff {path : Path} {extensions : List String} :
    path.matchesExtension extensions = true ↔ ∃ name, path.fileName? = some (Text.encode name) ∧
      ∃ extension ∈ extensions, ∃ ending, IsUndotted extension ending ∧ EndsWith name ending := by
  have named (name : String) : path.fileName?.bind Text.decode? = some name ↔
      path.fileName? = some (Text.encode name) := by
    simp [Option.bind_eq_some_iff, Text.decode?_eq_some_iff]
  simp only [← named, ← hasExtension_iff]
  rw [matchesExtension]
  cases path.fileName?.bind Text.decode? with
  | none => simp
  | some name => simp

theorem components_of_named {path : Path} {name : FileName} (named : path.fileName? = some name) :
    path.components = (path.home none).components ++ [.name name] := by
  obtain ⟨last, down⟩ := Option.filter_eq_some_iff.mp named
  have counted : counts name = true := counts_of_getLast?_core last
  obtain ⟨before, parts⟩ := List.getLast?_eq_some_iff.mp last
  have own : path.home none = ⟨path.anchor, core before⟩ := by
    rw [home, named, parent?_of_core parts]
    rfl
  have other : name ≠ dotDot := by simpa using down
  have whole : path.components = components ⟨path.anchor, before ++ [name]⟩ := by
    rw [← parts, components_core]
  rw [whole, own, components_core]
  simp [components, counted, other]

theorem ended_inj {above beyond : List Component} {stem rest : String} (ending : String) :
    above ++ [.name (Text.encode (stem ++ ending))] =
        beyond ++ [.name (Text.encode (rest ++ ending))] ↔ above = beyond ∧ stem = rest := by
  rw [List.append_singleton_inj, Component.name.injEq, Text.encode_injective.eq_iff,
    String.append_left_inj]

section Default

variable {left right path : Path}

/-- A document with the default extension has two endings, and its source the first of them. -/
theorem exists_stem (found : path.matchesExtension ["go.md"] = true) :
    ∃ stem, path.fileName? = some (Text.encode (stem ++ ".go.md")) ∧
      path.sourceName = Text.encode (stem ++ ".go") := by
  obtain ⟨name, named, extension, member, ending, undotted, stem, -, whole⟩ :=
    matchesExtension_iff.mp found
  rw [List.mem_singleton] at member
  rw [isUndotted_iff, member] at undotted
  have same : ending = "go.md" := String.toList_inj.mp undotted.symm
  have parts : name = stem ++ ".go.md" := by
    rw [whole, same, String.append_assoc]
    rfl
  refine ⟨stem, parts ▸ named, ?_⟩
  rw [sourceName, named, Option.getD_some, Text.lossy_encode, parts, String.toList_append,
    outputName_append, ← String.toList_append, String.ofList_toList]

theorem same_output_iff (found : left.matchesExtension ["go.md"] = true)
    (other : right.matchesExtension ["go.md"] = true) :
    (left.output none).same (right.output none) = true ↔ left.same right = true := by
  obtain ⟨stem, named, called⟩ := exists_stem found
  obtain ⟨rest, known, titled⟩ := exists_stem other
  rw [same, same, beq_iff_eq, beq_iff_eq, components_output, components_output, called, titled,
    components_of_named named, components_of_named known, ended_inj, ended_inj]

theorem not_same_output (found : left.matchesExtension ["go.md"] = true)
    (other : right.matchesExtension ["go.md"] = true) :
    (left.output none).same right = false := by
  obtain ⟨stem, -, called⟩ := exists_stem found
  obtain ⟨rest, known, -⟩ := exists_stem other
  rw [same, beq_eq_false_iff_ne, components_output, called, components_of_named known]
  intro equal
  have names := (List.append_singleton_inj.mp equal).2
  have texts : stem ++ ".go" = rest ++ ".go.md" :=
    Text.encode_injective (Component.name.inj names)
  have last := congrArg (fun text => text.toList.getLast?) texts
  simp at last

end Default

/--
Documents with the default extension go to sources of their own. A path has one of some extensions
if and only if its name is the bytes of a text, and the text is something, a dot, and the extension
less the dots that it begins with; whether it is so can be seen on the bytes. Two paths that have
the default extension are equal if and only if their sources are, and no source is equal to one.
-/
theorem sources_never_collide :
    (∀ (path : Path) (extensions : List String),
      (path.matchesExtension extensions = true ↔
        ∃ name, path.fileName? = some (Text.encode name) ∧ ∃ extension ∈ extensions,
          ∃ ending, IsUndotted extension ending ∧ EndsWith name ending) ∧
      (path.matchesExtension extensions = true ↔
        ∃ name, path.fileName? = some (Text.encode name) ∧ ∃ extension ∈ extensions,
          ∃ ending, IsUndotted extension ending ∧
            EndsInBytes (Text.encode name) (Text.encode ending))) ∧
    ({} : Settings).fileExtensions = ["go.md"] ∧
    ∀ left right : Path, left.matchesExtension ["go.md"] = true →
      right.matchesExtension ["go.md"] = true →
        ((left.output none).same (right.output none) = true ↔ left.same right = true) ∧
        (left.output none).same right = false := by
  refine ⟨fun path extensions => ⟨matchesExtension_iff, ?_⟩, rfl, fun left right found other => ?_⟩
  · simp only [endsInBytes_encode]
    exact matchesExtension_iff
  · exact ⟨same_output_iff found other, not_same_output found other⟩

theorem sources_never_collide_respelled :
    let longer := ofString "pkg/./ü.go.go.md"
    let again := ofString "pkg//ü.go.go.md"
    let shorter := ofString "pkg/ü.go.md"
    (∀ path ∈ [longer, again, shorter], path.matchesExtension ["go.md"] = true) ∧
      (longer.output none).same (again.output none) = true ∧
      (longer.output none).same (shorter.output none) = false ∧
      (longer.output none).same again = false := by
  intro longer again shorter
  have found : ∀ path ∈ [longer, again, shorter], path.matchesExtension ["go.md"] = true := by
    decide +kernel
  obtain ⟨-, -, apart⟩ := sources_never_collide
  have alike := apart longer again (found _ (by simp)) (found _ (by simp))
  have unlike := apart longer shorter (found _ (by simp)) (found _ (by simp))
  refine ⟨found, alike.1.mpr (by decide +kernel), ?_, alike.2⟩
  rw [Bool.eq_false_iff, Ne, unlike.1]
  decide +kernel

end Path

end Tangle
