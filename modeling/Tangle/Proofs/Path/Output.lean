import Mathlib.Data.List.DropRight
import Tangle.Path.Output
import Tangle.Proofs.Path.Spelling
import Tangle.Proofs.Text.Utf8

/-!
Where the source of a document goes. Every source has a name of its own kind (`IsSourceName`), which
is put after the directory that it belongs in (`output_eq_push`). What a path is after a name has
been put there, its last component, its parent and its spelling, follows from the name alone being a
component that leads down. Main result: sources stay in the directory they belong in, and the source
of a source is itself (`output_stays_in_place`).
-/

namespace Tangle

/-- The name of a source is that of the document with its own extension for those at the end. -/
theorem exists_outputName (name : List Char) :
    ∃ stem, ∃ ending ∈ ["", ".go", ".md", ".go.md"], name = stem ++ ending.toList ∧
      outputName name = stem ++ ".go".toList := by
  rw [outputName]
  cases cut : ('.' :: formatExtension.toList).isSuffixOf? name with
  | none =>
    rw [Option.getD_none]
    split_ifs with ends
    · obtain ⟨stem, same⟩ := List.isSuffixOf_iff_suffix.mp ends
      exact ⟨stem, ".go", by simp, same.symm, same.symm⟩
    · exact ⟨name, "", by simp, (List.append_nil name).symm, rfl⟩
  | some start =>
    have whole : name = start ++ ".md".toList := (List.isSuffixOf?_eq_some_iff_append_eq.mp cut).symm
    rw [Option.getD_some]
    split_ifs with ends
    · obtain ⟨stem, same⟩ := List.isSuffixOf_iff_suffix.mp ends
      refine ⟨stem, ".go.md", by simp, ?_, same.symm⟩
      rw [whole, ← same, List.append_assoc]
      rfl
    · exact ⟨start, ".md", by simp, whole, rfl⟩

theorem outputName_outputName (name : List Char) :
    outputName (outputName name) = outputName name := by
  obtain ⟨stem, -, -, -, ends⟩ := exists_outputName name
  have unlike : ('.' :: formatExtension.toList).isSuffixOf? (stem ++ ".go".toList) = none := by
    simp [List.isSuffixOf?, formatExtension, List.isPrefixOf?]
  have ended : ".go".toList.isSuffixOf (stem ++ ".go".toList) = true :=
    List.isSuffixOf_iff_suffix.mpr (List.suffix_append _ _)
  rw [ends, outputName, unlike, Option.getD_none, if_pos ended]

namespace Path

open FileName

section Segments

variable {name : FileName}

theorem core_concat (counted : counts name = true) (segments : List FileName) :
    core (segments ++ [name]) = segments ++ [name] := by
  simp [core, dropEndWhile, counted]

theorem core_concat_of_not (skipped : counts name = false) (segments : List FileName) :
    core (segments ++ [name]) = core segments := by
  simp [core, dropEndWhile, skipped]

theorem core_isPrefix (segments : List FileName) : core segments <+: segments :=
  List.rdropWhile_prefix _ segments

theorem core_core (segments : List FileName) : core (core segments) = core segments :=
  List.rdropWhile_idempotent _ segments

theorem filter_core (segments : List FileName) :
    (core segments).filter counts = segments.filter counts := by
  induction segments using List.reverseRecOn with
  | nil => rfl
  | append_singleton segments name ih =>
    by_cases counted : counts name = true
    · rw [core_concat counted]
    · rw [core_concat_of_not (by simpa using counted), ih, List.filter_append,
        List.filter_cons_of_neg counted, List.filter_nil, List.append_nil]

theorem counts_of_getLast?_core {segments : List FileName}
    (last : (core segments).getLast? = some name) : counts name = true := by
  obtain ⟨present, rfl⟩ := List.mem_getLast?_eq_getLast last
  have kept : ¬(!counts ((core segments).getLast present)) = true :=
    List.rdropWhile_last_not _ segments present
  simpa using kept

theorem getLast?_core_ne_nil (segments : List FileName) : (core segments).getLast? ≠ some [] := by
  intro last
  cases counts_of_getLast?_core last

end Segments

theorem components_core (anchor : Anchor) (segments : List FileName) :
    components ⟨anchor, core segments⟩ = components ⟨anchor, segments⟩ := by
  simp only [components, filter_core]

theorem parent?_of_core {path : Path} {before : List FileName} {name : FileName}
    (parts : core path.segments = before ++ [name]) :
    path.parent? = some ⟨path.anchor, core before⟩ := by
  cases whole : before ++ [name] with
  | nil => simp at whole
  | cons first rest =>
    have shorter : (first :: rest).dropLast = before := by rw [← whole, List.dropLast_concat]
    simp only [parent?, parts, whole, shorter]

section Push

variable {name : FileName} (path : Path)

theorem exists_push (name : FileName) : ∃ before, path.push name = ⟨path.anchor, before ++ [name]⟩ ∧
    before <+: path.segments ∧ core before = core path.segments := by
  rw [push]
  split_ifs with slash
  · obtain ⟨before, parts⟩ := List.getLast?_eq_some_iff.mp slash
    rw [parts, List.dropLast_concat, core_concat_of_not rfl]
    exact ⟨before, rfl, List.prefix_append before _, rfl⟩
  · exact ⟨path.segments, rfl, List.prefix_rfl, rfl⟩

theorem parent?_push (counted : counts name = true) :
    (path.push name).parent? = some ⟨path.anchor, core path.segments⟩ := by
  obtain ⟨before, pushed, -, same⟩ := path.exists_push name
  rw [pushed, ← same]
  exact parent?_of_core (core_concat counted before)

theorem fileName?_push (counted : counts name = true) (down : name ≠ dotDot) :
    (path.push name).fileName? = some name := by
  obtain ⟨before, pushed, -⟩ := path.exists_push name
  rw [pushed, fileName?, core_concat counted]
  simp [down]

theorem components_push (counted : counts name = true) (down : name ≠ dotDot) :
    (path.push name).components = path.components ++ [.name name] := by
  obtain ⟨before, pushed, -, same⟩ := path.exists_push name
  have kept : before.filter counts = path.segments.filter counts := by
    rw [← filter_core before, same, filter_core]
  simp [pushed, components, kept, counted, down]

theorem IsSpelled.counts_head {path : Path} (spelled : path.IsSpelled) (bare : path.anchor = .bare)
    {before : List FileName} (shorter : before <+: path.segments) :
    ∀ first ∈ before.head?, counts first = true := by
  intro first member
  obtain ⟨after, parts⟩ := shorter
  apply spelled.bare bare first
  rw [← parts, List.head?_append, Option.mem_def.mp member]
  rfl

theorem IsSpelled.push {path : Path} (spelled : path.IsSpelled) (counted : counts name = true)
    (free : slash ∉ name) : (path.push name).IsSpelled := by
  obtain ⟨before, pushed, shorter, -⟩ := path.exists_push name
  rw [pushed]
  refine ⟨?_, fun bare first member => ?_, fun _ alone => ?_⟩
  · intro segment member
    rcases List.mem_append.mp member with earlier | last
    · exact spelled.free segment (shorter.subset earlier)
    · exact List.mem_singleton.mp last ▸ free
  · cases before with
    | nil => exact Option.some.inj member ▸ counted
    | cons start rest => exact spelled.counts_head bare shorter first member
  · have empty : name = [] := by simpa using congrArg List.getLast? alone
    rw [empty] at counted
    cases counted

end Push

theorem exists_parent_of_named {path : Path} (named : path.fileName? ≠ none) :
    ∃ before, path.parent? = some ⟨path.anchor, core before⟩ ∧ core before <+: path.segments := by
  cases last : (core path.segments).getLast? with
  | none =>
    rw [fileName?, last] at named
    exact absurd rfl named
  | some name =>
    obtain ⟨before, parts⟩ := List.getLast?_eq_some_iff.mp last
    have shorter : before ++ [name] <+: path.segments := parts ▸ core_isPrefix path.segments
    refine ⟨before, parent?_of_core parts, ?_⟩
    exact ((core_isPrefix before).trans (List.prefix_append before _)).trans shorter

theorem mem_of_fileName? {path : Path} {name : FileName} (named : path.fileName? = some name) :
    name ∈ path.segments := by
  have last : (core path.segments).getLast? = some name := (Option.filter_eq_some_iff.mp named).1
  exact (core_isPrefix _).subset (List.mem_of_getLast? last)

section Names

/-- A name that a source may have: one component that leads down and ends with the extension. -/
structure IsSourceName (name : FileName) : Prop where
  free : slash ∉ name
  counted : counts name = true
  down : name ≠ dotDot
  ends : Text.encode ".go" <:+ name

def sourceName (input : Path) : FileName :=
  Text.encode (String.ofList (outputName (Text.lossy (input.fileName?.getD [])).toList))

theorem encode_extension : Text.encode ".go" = [0x2E, 0x67, 0x6F] := by
  have bytes := Text.encode_ofList ".go".toList
  rw [String.ofList_toList] at bytes
  rw [bytes]
  decide

theorem exists_sourceName (input : Path) : ∃ stem, ∃ ending ∈ ["", ".go", ".md", ".go.md"],
    (Text.lossy (input.fileName?.getD [])).toList = stem ++ ending.toList ∧
      input.sourceName = Text.encode (String.ofList (stem ++ ".go".toList)) := by
  obtain ⟨stem, ending, known, whole, ends⟩ :=
    exists_outputName (Text.lossy (input.fileName?.getD [])).toList
  exact ⟨stem, ending, known, whole, by rw [sourceName, ends]⟩

variable {input : Path}

theorem extension_isSuffix (input : Path) : Text.encode ".go" <:+ input.sourceName := by
  obtain ⟨stem, -, -, -, ends⟩ := exists_sourceName input
  rw [ends, String.ofList_append, Text.encode_append, String.ofList_toList]
  exact List.suffix_append _ _

theorem length_sourceName (input : Path) : 3 ≤ input.sourceName.length := by
  have long := (extension_isSuffix input).length_le
  rwa [encode_extension] at long

theorem counts_sourceName (input : Path) : counts input.sourceName = true := by
  have long := length_sourceName input
  rw [counts, Bool.and_eq_true, bne_iff_ne, bne_iff_ne]
  constructor <;> intro short <;> simp [short, dot] at long

theorem sourceName_ne_dotDot (input : Path) : input.sourceName ≠ dotDot := by
  intro short
  have long := length_sourceName input
  simp [short, dotDot] at long

theorem isSourceName_sourceName (spelled : input.IsSpelled) : IsSourceName input.sourceName := by
  refine ⟨?_, counts_sourceName input, sourceName_ne_dotDot input, extension_isSuffix input⟩
  have free : slash ∉ input.fileName?.getD [] := by
    cases named : input.fileName? with
    | none => exact List.not_mem_nil
    | some name => exact spelled.free name (mem_of_fileName? named)
  have clean := Text.slash_not_mem_lossy free
  obtain ⟨stem, ending, -, whole, ends⟩ := exists_sourceName input
  rw [whole, List.mem_append, not_or] at clean
  rw [ends]
  apply Text.slash_not_mem_encode
  rw [List.mem_append, not_or]
  exact ⟨clean.1, by decide⟩

theorem sourceName_of_fileName? {output : Path} (named : output.fileName? = some input.sourceName) :
    output.sourceName = input.sourceName := by
  rw [sourceName, named, Option.getD_some, sourceName, Text.lossy_encode, String.toList_ofList,
    outputName_outputName]

end Names

section Placement

/-- The directory that a source belongs in: the one given, or else where its document is. -/
def home (input : Path) : Option Path → Path
  | some directory => directory
  | none => if input.fileName?.isSome then input.parent?.getD input else input

theorem output_eq_push (input : Path) (directory : Option Path) :
    input.output directory = (input.home directory).push input.sourceName := by
  cases directory with
  | some directory => rfl
  | none =>
    rw [home, apply_ite (push · input.sourceName)]
    rfl

section Output

variable (input : Path) (directory : Option Path)

theorem fileName?_output : (input.output directory).fileName? = some input.sourceName := by
  rw [output_eq_push, fileName?_push _ (counts_sourceName input) (sourceName_ne_dotDot input)]

theorem parent?_output : (input.output directory).parent? =
    some ⟨(input.home directory).anchor, core (input.home directory).segments⟩ := by
  rw [output_eq_push, parent?_push _ (counts_sourceName input)]

theorem components_output : (input.output directory).components =
    (input.home directory).components ++ [.name input.sourceName] := by
  rw [output_eq_push, components_push _ (counts_sourceName input) (sourceName_ne_dotDot input)]

/-- The source of a source has its name, so only its directory could be another. -/
theorem output_output : (input.output directory).output directory =
    ((input.output directory).home directory).push input.sourceName := by
  rw [output_eq_push (input.output directory),
    sourceName_of_fileName? (fileName?_output input directory)]

end Output

variable {input : Path}

theorem home_of_named (named : input.fileName? ≠ none) :
    ∃ before, input.parent? = some (input.home none) ∧
      input.home none = ⟨input.anchor, core before⟩ ∧ core before <+: input.segments := by
  obtain ⟨before, parted, shorter⟩ := exists_parent_of_named named
  have own : input.home none = ⟨input.anchor, core before⟩ := by
    rw [home, if_pos (Option.isSome_iff_ne_none.mpr named), parted, Option.getD_some]
  exact ⟨before, own ▸ parted, own, shorter⟩

theorem home_of_unnamed (unnamed : input.fileName? = none) : input.home none = input := by
  rw [home, unnamed]
  rfl

theorem IsSpelled.home {directory : Option Path} (spelled : input.IsSpelled)
    (given : ∀ place ∈ directory, place.IsSpelled) : (input.home directory).IsSpelled := by
  cases directory with
  | some place => exact given place rfl
  | none =>
    by_cases named : input.fileName? = none
    · rwa [home_of_unnamed named]
    · obtain ⟨before, -, own, shorter⟩ := home_of_named named
      rw [own]
      refine ⟨?_, fun bare => spelled.counts_head bare shorter, ?_⟩
      · intro segment member
        exact spelled.free segment (shorter.subset member)
      · intro _ alone
        exact getLast?_core_ne_nil before (congrArg List.getLast? alone)

theorem home_output (input : Path) (directory : Option Path) :
    ((input.output directory).home directory).components = (input.home directory).components ∧
      (directory ≠ none ∨ input.fileName? ≠ none →
        (input.output directory).home directory = input.home directory) := by
  cases directory with
  | some directory => exact ⟨rfl, fun _ => rfl⟩
  | none =>
    have own : (input.output none).home none =
        ⟨(input.home none).anchor, core (input.home none).segments⟩ := by
      rw [home, fileName?_output, parent?_output]
      rfl
    rw [own, components_core]
    refine ⟨rfl, fun known => ?_⟩
    have named : input.fileName? ≠ none := known.resolve_left (fun given => given rfl)
    obtain ⟨before, -, spelling, -⟩ := home_of_named named
    rw [spelling, core_core]

/--
An output that stays where it belongs. Its last component is a name for a source, made from that of
the document, and the rest is its parent. The parent is the directory given, or without one the
parent of the document, which is the document itself if it has no name. The output is read from its
own spelling, and is its own output.
-/
structure IsPlaced (input : Path) (directory : Option Path) (output : Path) : Prop where
  named : ∃ name parent, IsSourceName name ∧ output.fileName? = some name ∧
    output.parent? = some parent ∧ output.components = parent.components ++ [.name name]
  called : ∃ stem, ∃ ending ∈ ["", ".go", ".md", ".go.md"],
    (Text.lossy (input.fileName?.getD [])).toList = stem ++ ending.toList ∧
      output.fileName? = some (Text.encode (String.ofList (stem ++ ".go".toList)))
  within : ∀ place ∈ directory, ∃ parent, output.parent? = some parent ∧
    parent.components = place.components
  beside : directory = none → input.fileName? ≠ none → ∃ parent, output.parent? = some parent ∧
    input.parent? = some parent
  below : directory = none → input.fileName? = none → ∃ parent, output.parent? = some parent ∧
    parent.components = input.components
  spelled : ofBytes output.toBytes = output
  again : (output.output directory).components = output.components
  exactly : directory ≠ none ∨ input.fileName? ≠ none → output.output directory = output

/-- Sources stay where they belong, whatever bytes the path of a document is and the directory's. -/
theorem output_stays_in_place (bytes : List UInt8) (directory : Option (List UInt8)) :
    IsPlaced (ofBytes bytes) (directory.map ofBytes)
      ((ofBytes bytes).output (directory.map ofBytes)) := by
  have spelled := isSpelled_ofBytes bytes
  have given : ∀ place ∈ directory.map ofBytes, place.IsSpelled := by
    intro place member
    obtain ⟨path, -, rfl⟩ := Option.map_eq_some_iff.mp member
    exact isSpelled_ofBytes path
  generalize ofBytes bytes = input at spelled
  generalize directory.map ofBytes = directory at given
  have proper := isSourceName_sourceName spelled
  have parted := parent?_output input directory
  have kept := fileName?_output input directory
  have extended := components_output input directory
  obtain ⟨settled, unmoved⟩ := home_output input directory
  constructor
  case named =>
    refine ⟨input.sourceName, _, proper, kept, parted, ?_⟩
    rw [extended, components_core]
  case called =>
    obtain ⟨stem, ending, known, whole, ends⟩ := exists_sourceName input
    refine ⟨stem, ending, known, whole, ?_⟩
    rw [kept, ends]
  case within =>
    rintro place rfl
    exact ⟨_, parted, components_core _ _⟩
  case beside =>
    rintro rfl named
    obtain ⟨before, own, spelling, -⟩ := home_of_named named
    refine ⟨_, parted, ?_⟩
    rw [own, spelling, core_core]
  case below =>
    rintro rfl unnamed
    rw [home_of_unnamed unnamed] at parted
    exact ⟨_, parted, components_core _ _⟩
  case spelled =>
    rw [output_eq_push]
    exact ((spelled.home given).push proper.counted proper.free).ofBytes_toBytes
  case again =>
    rw [output_output, components_push _ proper.counted proper.down, settled, extended]
  case exactly =>
    intro known
    rw [output_output, unmoved known, output_eq_push]

end Placement

end Path

end Tangle
