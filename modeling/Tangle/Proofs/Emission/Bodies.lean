import Mathlib.Data.List.TakeWhile
import Tangle.Proofs.Document.Breaking
import Tangle.Proofs.Emission.Nesting
import Tangle.Proofs.Emission.Sections

/-!
The bodies of functions. A heading is followed by the siblings of its section, which end before the
next heading of any level. Whose a code block is, whether it opens the body and whether it closes it
is found out by three searches with different bounds, and they agree on one section: the body opens
before its first code block and closes after its last.
-/

namespace Tangle

def Piece.isBodyDelimiter : Piece → Bool
  | noGroups | openBody | closeBody => true
  | _ => false

namespace Outline

section Plain

variable {members : List Outline} (plain : ∀ member ∈ members, member.kind ≠ .heading)

include plain

theorem sinceHeading_of_plain {heading : Outline} (own : heading.kind = .heading)
    (before : List Outline) : sinceHeading (before ++ heading :: members) = members.reverse := by
  have inner : ∀ member ∈ members.reverse, member.kind != .heading := by
    intro member present
    simpa using plain member (List.mem_reverse.mp present)
  rw [sinceHeading, List.reverse_append, List.reverse_cons, List.append_assoc,
    List.takeWhile_append_of_pos inner]
  simp [own]

theorem over_of_plain {heading : Outline} (own : heading.kind = .heading) (before : List Outline) :
    (Passed.over (before ++ heading :: members)).topic = some heading.topic ∧
      (Passed.over (before ++ heading :: members)).chunk = members.any (·.kind == .codeBlock) := by
  have inner : members.reverse.find? (·.kind == .heading) = none := by
    rw [List.find?_eq_none]
    intro member present
    simpa using plain member (List.mem_reverse.mp present)
  rw [Passed.over_eq, sinceHeading_of_plain plain own]
  refine ⟨?_, ?_⟩
  · rw [List.reverse_append, List.reverse_cons, List.append_assoc, List.find?_append, inner]
    simp [own]
  · rw [Bool.eq_iff_iff, List.find?_isSome, List.any_eq_true]
    simp only [List.mem_reverse]

theorem chunkAhead_of_plain : chunkAhead members = members.any (·.kind == .codeBlock) := by
  have inner : ∀ member ∈ members, member.kind != .heading := by
    intro member present
    simpa using plain member present
  rw [chunkAhead_eq, List.takeWhile_eq_self_iff.mpr inner, Bool.eq_iff_iff, List.find?_isSome,
    List.any_eq_true]

end Plain

theorem codePieces_of_other {passed : Passed} (other : passed.topic ≠ some .function) (ahead : Bool)
    (body : String) : codePieces passed ahead body =
      if passed.topic = some .file then [.prologue body] else [] := by
  unfold codePieces
  rcases topic : passed.topic with - | - | - | - <;> simp_all

theorem filter_itemPieces (outer : Option Group) (passed : Passed) (outline : Outline) :
    (itemPieces outer passed outline).filter Piece.isDelimiter =
      outline.group?.elim [] (openingPieces passed) := by
  have opening : ∀ group, (openingPieces passed group).filter Piece.isDelimiter =
      openingPieces passed group := by
    intro group
    cases group with
    | parameters => rfl
    | returns =>
      rw [openingPieces]
      split_ifs <;> rfl
  have entry : ∀ group, (entryPieces passed group outline).filter Piece.isDelimiter = [] := by
    intro group
    rw [entryPieces]
    cases outline.findDescendant? .codeSpan with
    | none => rfl
    | some code => cases group <;> split_ifs <;> rfl
  unfold itemPieces Group.all
  simp only [List.flatMap_cons, List.flatMap_nil, List.append_nil, List.filter_append]
  rcases outline.group? with - | - | - <;> rcases outer with - | - | - <;>
    simp [opening, entry]

theorem not_isBodyDelimiter_opening {passed : Passed} {group : Group} {piece : Piece}
    (member : piece ∈ openingPieces passed group) : piece.isBodyDelimiter = false := by
  cases group with
  | parameters =>
    obtain rfl := List.mem_singleton.mp member
    rfl
  | returns =>
    have listed : piece = .noParameters ∨ piece = .openGroup := by
      rw [openingPieces] at member
      split_ifs at member <;> simp_all
    rcases listed with rfl | rfl <;> rfl

theorem filter_enterPieces {passed : Passed} {outline : Outline}
    (other : outline.kind = .codeBlock → passed.topic ≠ some .function) (outer : Option Group)
    (ahead : Bool) : (enterPieces outer passed ahead outline).filter Piece.isDelimiter =
      outline.group?.elim [] (openingPieces passed) := by
  by_cases item : outline.kind = .listItem
  · rw [enterPieces, item]
    exact filter_itemPieces outer passed outline
  · have closed : outline.group? = none := by rw [group?, if_neg item]
    rw [closed, enterPieces]
    cases kind : outline.kind with
    | codeBlock =>
      simp only [codePieces_of_other (other kind)]
      split_ifs <;> rfl
    | heading => split_ifs <;> rfl
    | listItem => exact absurd kind item
    | _ => rfl

theorem function_of_isBodyDelimiter {outer : Option Group} {passed : Passed} {ahead : Bool}
    {outline : Outline} {piece : Piece} (member : piece ∈ enterPieces outer passed ahead outline)
    (delimits : piece.isBodyDelimiter) :
    outline.kind = .codeBlock ∧ passed.topic = some .function := by
  by_contra elsewhere
  have kept : piece ∈ (enterPieces outer passed ahead outline).filter Piece.isDelimiter := by
    refine List.mem_filter.mpr ⟨member, ?_⟩
    cases piece <;> cases delimits <;> rfl
  rw [filter_enterPieces fun code function => elsewhere ⟨code, function⟩] at kept
  cases opens : outline.group? with
  | none =>
    rw [opens] at kept
    cases kept
  | some group =>
    rw [opens] at kept
    rw [not_isBodyDelimiter_opening kept] at delimits
    cases delimits

end Outline

namespace Document

/-- The section of a heading: the siblings after it and before the next heading of any level. -/
structure Heads (doc : Document) (heading : NodeId) (members : List NodeId) : Prop where
  isHeading : doc.hasKind .heading heading
  plain : ∀ member ∈ members, doc.hasKind .heading member = false
  place : ∃ parent before rest, doc.children parent = before ++ heading :: (members ++ rest) ∧
    ∀ next ∈ rest.head?, doc.hasKind .heading next

def chunks (doc : Document) (ids : List NodeId) : List NodeId := ids.filter (doc.hasKind .codeBlock)

/-- On a visit a document writes these pieces, and they read as this source. -/
def Writes (doc : Document) (visit : Visit) (pieces : List Piece) (source : String) : Prop :=
  doc.visitPieces visit = .ok pieces ∧ (Generated.ofPieces pieces).source = source

theorem kind_of_hasKind {doc : Document} {kind : Kind} {id : NodeId} (own : doc.hasKind kind id) :
    id < doc.size ∧ (doc.outlineAt id).kind = kind := by
  have inside := lt_size_of_hasKind own
  refine ⟨inside, ?_⟩
  rwa [hasKind_eq inside, beq_iff_eq] at own

section Kinds

variable {doc : Document} {ids : List Nat} (inside : ∀ id ∈ ids, id < doc.size)

include inside

theorem any_map_outlineAt (kind : Kind) :
    (ids.map doc.outlineAt).any (·.kind == kind) = ids.any (doc.hasKind kind) := by
  rw [List.any_map, Bool.eq_iff_iff, List.any_eq_true, List.any_eq_true]
  constructor <;>
  · rintro ⟨id, member, own⟩
    exact ⟨id, member, by simpa [hasKind_eq (inside id member)] using own⟩

theorem kind_ne_of_mem_map {kind : Kind} (other : ∀ id ∈ ids, doc.hasKind kind id = false) :
    ∀ outline ∈ ids.map doc.outlineAt, outline.kind ≠ kind := by
  intro outline member
  obtain ⟨id, present, rfl⟩ := List.mem_map.mp member
  have own := other id present
  rwa [hasKind_eq (inside id present), beq_eq_false_iff_ne] at own

end Kinds

theorem view_collect {β : Type} {view : List Piece → List β} (empty : view [] = [])
    (append : ∀ pieces more, view (pieces ++ more) = view pieces ++ view more) {doc : Document}
    {seen : Visit → List β} {visits : List Visit} (each : ∀ visit ∈ visits,
      ∃ pieces, doc.visitPieces visit = .ok pieces ∧ view pieces = seen visit) :
    ∃ written, doc.collect visits = .ok written ∧ view written = visits.flatMap seen := by
  induction visits with
  | nil => exact ⟨[], rfl, empty⟩
  | cons visit rest ih =>
    rw [List.forall_mem_cons] at each
    obtain ⟨⟨first, written, own⟩, later⟩ := each
    obtain ⟨others, further, same⟩ := ih later
    refine ⟨first ++ others, collect_append (collect_singleton written) further, ?_⟩
    rw [append, own, same, List.flatMap_cons]

namespace Heads

variable {doc : Document} (built : Built doc) {heading : NodeId}

include built

theorem exists_parent {members : List NodeId} (heads : doc.Heads heading members) :
    ∃ parent, ∀ id ∈ heading :: members, id ∈ doc.offspring parent := by
  obtain ⟨parent, before, rest, split, -⟩ := heads.place
  rw [built.children_eq] at split
  refine ⟨parent, fun id member => ?_⟩
  rw [split]
  rcases List.mem_cons.mp member with rfl | later <;> simp [*]

theorem lt_size {members : List NodeId} (heads : doc.Heads heading members) :
    ∀ id ∈ heading :: members, id < doc.size := by
  obtain ⟨parent, siblings⟩ := heads.exists_parent built
  exact fun id member => (mem_offspring.mp (siblings id member)).1

/-- At a member of a section the scan knows its heading and the code blocks on both sides. -/
theorem exists_between {earlier later : List NodeId} {id : NodeId}
    (heads : doc.Heads heading (earlier ++ id :: later)) :
    ∃ parent before after, Between doc parent id before after ∧
      (Passed.over (before.map doc.outlineAt)).topic = some (doc.outlineAt heading).topic ∧
      (Passed.over (before.map doc.outlineAt)).chunk = earlier.any (doc.hasKind .codeBlock) ∧
      Outline.chunkAhead (after.map doc.outlineAt) = later.any (doc.hasKind .codeBlock) := by
  have inside := heads.lt_size built
  have bounds : (∀ other ∈ earlier, other < doc.size) ∧ ∀ other ∈ later, other < doc.size := by
    constructor <;>
    · intro other member
      exact inside other (by simp [member])
  obtain ⟨parent, before, rest, split, ends⟩ := heads.place
  rw [built.children_eq] at split
  have parted : doc.offspring parent = (before ++ heading :: earlier) ++ id :: (later ++ rest) := by
    simpa using split
  have member : heading ∈ doc.offspring parent := by simp [split]
  have above : doc.Attached parent :=
    built.attached (Nat.lt_trans (mem_offspring.mp member).2.2 (mem_offspring.mp member).1)
  have between : Between doc parent id (before ++ heading :: earlier) (later ++ rest) :=
    ⟨above, parted⟩
  have own : (doc.outlineAt heading).kind = .heading := by
    have kind := heads.isHeading
    rwa [hasKind_eq (inside heading List.mem_cons_self), beq_iff_eq] at kind
  have plain : (∀ outline ∈ earlier.map doc.outlineAt, outline.kind ≠ .heading) ∧
      ∀ outline ∈ later.map doc.outlineAt, outline.kind ≠ .heading := by
    constructor
    · exact kind_ne_of_mem_map bounds.1 fun other member => heads.plain other (by simp [member])
    · exact kind_ne_of_mem_map bounds.2 fun other member => heads.plain other (by simp [member])
  have opens : Outline.OpensSection (rest.map doc.outlineAt) := by
    intro first head
    rw [List.head?_map] at head
    obtain ⟨next, found, rfl⟩ := Option.map_eq_some_iff.mp head
    have sibling : next ∈ doc.offspring parent := by simp [split, List.mem_of_head? found]
    have kind := ends next found
    rwa [hasKind_eq (mem_offspring.mp sibling).1, beq_iff_eq] at kind
  obtain ⟨topic, chunk⟩ := Outline.over_of_plain plain.1 own (before.map doc.outlineAt)
  refine ⟨parent, _, _, between, ?_, ?_, ?_⟩
  · rw [List.map_append, List.map_cons, topic]
  · rw [List.map_append, List.map_cons, chunk, any_map_outlineAt bounds.1]
  · rw [List.map_append, Outline.chunkAhead_append opens, Outline.chunkAhead_of_plain plain.2,
      any_map_outlineAt bounds.2]

end Heads

namespace Built

variable {doc : Document} (built : Built doc)

include built

theorem heads_takeWhile {parent : Nat} {heading : NodeId} {before after : List NodeId}
    (split : doc.offspring parent = before ++ heading :: after)
    (own : doc.hasKind .heading heading) :
    doc.Heads heading (after.takeWhile fun sibling => !doc.hasKind .heading sibling) := by
  refine ⟨own, ?_, parent, before,
    after.dropWhile fun sibling => !doc.hasKind .heading sibling, ?_, ?_⟩
  · intro member present
    simpa using List.mem_takeWhile_imp present
  · rw [built.children_eq, split, List.takeWhile_append_dropWhile]
  · intro next first
    have ends := List.head?_dropWhile_not (fun sibling => !doc.hasKind .heading sibling) after
    rw [Option.mem_def.mp first] at ends
    simpa using ends

theorem exists_heads {heading : NodeId} (own : doc.hasKind .heading heading) :
    ∃ members, doc.Heads heading members := by
  obtain ⟨inside, kind⟩ := kind_of_hasKind own
  have other : heading ≠ root := by
    rintro rfl
    rw [Outline.kind, label_outlineAt, built.grown.labelAt_root] at kind
    cases kind
  obtain ⟨parent, before, after, split⟩ := built.exists_split inside other
  exact ⟨_, built.heads_takeWhile split own⟩

/-- A node after which a scan knows a heading stands in the section of that heading. -/
theorem exists_heads_of_topic {parent id : Nat} {before after : List Nat}
    (between : Between doc parent id before after) (other : (doc.outlineAt id).kind ≠ .heading)
    {topic : Topic} (known : (Passed.over (before.map doc.outlineAt)).topic = some topic) :
    ∃ heading members, doc.Heads heading members ∧ id ∈ members ∧
      (doc.outlineAt heading).topic = topic := by
  rw [Passed.over_eq, ← List.map_reverse, ← map_find?_hasKind between.before_lt] at known
  obtain ⟨_, found, rfl⟩ := Option.map_eq_some_iff.mp known
  obtain ⟨heading, latest, rfl⟩ := Option.map_eq_some_iff.mp found
  obtain ⟨own, nearer, farther, reversed, plain⟩ := List.find?_eq_some_iff_append.mp latest
  have parted : before = farther.reverse ++ heading :: nearer.reverse := by
    rw [← List.reverse_reverse before, reversed]
    simp
  have split : doc.offspring parent =
      farther.reverse ++ heading :: (nearer.reverse ++ id :: after) := by
    rw [between.split, parted]
    simp
  refine ⟨heading, _, built.heads_takeWhile split own, ?_, rfl⟩
  have near : ∀ sibling ∈ nearer.reverse, !doc.hasKind .heading sibling :=
    fun sibling member => plain sibling (List.mem_reverse.mp member)
  have beyond : doc.hasKind .heading id = false := by
    rwa [hasKind_eq between.placed.1, beq_eq_false_iff_ne]
  rw [List.takeWhile_append_of_pos near, List.takeWhile_cons, beyond]
  simp

theorem functionHeading?_iff {heading : NodeId} (own : doc.hasKind .heading heading) :
    (∃ signature, doc.functionHeading? heading = .ok (some signature)) ↔
      (doc.outlineAt heading).topic = .function := by
  obtain ⟨inside, kind⟩ := kind_of_hasKind own
  rw [built.grown.functionHeading?_eq (built.placed inside) kind]
  split_ifs with function <;> simp [function]

theorem fileHeading?_iff {heading : NodeId} (own : doc.hasKind .heading heading) :
    (∃ file, doc.fileHeading? heading = some file) ↔ (doc.outlineAt heading).topic = .file := by
  obtain ⟨inside, kind⟩ := kind_of_hasKind own
  rw [← Option.isSome_iff_exists, built.grown.fileHeading?_isSome (built.placed inside) kind,
    decide_eq_true_iff]

theorem exists_between {id : Nat} (inside : id < doc.size) (other : id ≠ root) :
    ∃ parent before after, Between doc parent id before after := by
  obtain ⟨parent, before, after, split⟩ := built.exists_split inside other
  have member : id ∈ doc.offspring parent := by simp [split]
  obtain ⟨-, -, later⟩ := mem_offspring.mp member
  exact ⟨parent, before, after, built.attached (Nat.lt_trans later inside), split⟩

theorem silent_or_between (id : NodeId) : doc.enterPieces id = .ok [] ∨
    ∃ parent before after, Between doc parent id before after := by
  by_cases inside : id < doc.size
  · by_cases start : id = root
    · have kind : doc.kind? root = some .document := by
        rw [kind?_eq built.root_lt, Outline.kind, label_outlineAt, built.grown.labelAt_root]
      rw [enterPieces, start, kind]
      exact .inl rfl
    · exact .inr (built.exists_between inside start)
  · have missing : doc.kind? id = none := by
      rw [kind?, get?_eq_none (Nat.le_of_not_lt inside), Option.map_none]
    rw [enterPieces, missing]
    exact .inl rfl

theorem exists_visitPieces (visit : Visit) : ∃ pieces, doc.visitPieces visit = .ok pieces := by
  rcases visit with ⟨id, - | -⟩
  · rcases built.silent_or_between id with silent | ⟨parent, before, after, between⟩
    · exact ⟨[], silent⟩
    · exact ⟨_, between.enterPieces_eq built.grown⟩
  · exact ⟨_, rfl⟩

theorem exists_collect (visits : List Visit) : ∃ pieces, doc.collect visits = .ok pieces := by
  induction visits with
  | nil => exact ⟨[], rfl⟩
  | cons visit rest ih =>
    obtain ⟨first, written⟩ := built.exists_visitPieces visit
    obtain ⟨later, further⟩ := ih
    exact ⟨_, collect_append (collect_singleton written) further⟩

/-- A delimiter of a body is written on entering a code block in the section of a function. -/
theorem heads_of_isBodyDelimiter {visit : Visit} {pieces : List Piece}
    (written : doc.visitPieces visit = .ok pieces) {piece : Piece} (member : piece ∈ pieces)
    (delimits : piece.isBodyDelimiter) : visit.phase = .enter ∧
      ∃ heading members signature, doc.Heads heading members ∧
        doc.functionHeading? heading = .ok (some signature) ∧ visit.node ∈ doc.chunks members := by
  rcases visit with ⟨id, - | -⟩
  · rw [visitPieces] at written
    rcases built.silent_or_between id with silent | ⟨parent, before, after, between⟩
    · rw [silent] at written
      cases written
      cases member
    · rw [between.enterPieces_eq built.grown] at written
      cases written
      obtain ⟨code, topic⟩ := Outline.function_of_isBodyDelimiter member delimits
      obtain ⟨heading, members, heads, among, function⟩ :=
        built.exists_heads_of_topic between (by rw [code]; decide) topic
      obtain ⟨signature, named⟩ := (built.functionHeading?_iff heads.isHeading).mpr function
      refine ⟨rfl, heading, members, signature, heads, named, List.mem_filter.mpr ⟨among, ?_⟩⟩
      rw [hasKind_eq between.placed.1, code]
      rfl
  · rw [visitPieces, exitPieces] at written
    cases written
    split_ifs at member
    · obtain rfl := List.mem_singleton.mp member
      cases delimits
    · cases member

theorem bodiless {heading : NodeId} {members : List NodeId} (heads : doc.Heads heading members)
    (none : doc.chunks members = []) {id : NodeId} (member : id ∈ heading :: members)
    {phase : Phase} {pieces : List Piece} (written : doc.visitPieces ⟨id, phase⟩ = .ok pieces) :
    ∀ piece ∈ pieces, ¬piece.isBodyDelimiter := by
  intro piece present delimits
  obtain ⟨-, _, _, _, -, -, among⟩ := built.heads_of_isBodyDelimiter written present delimits
  have code := (List.mem_filter.mp among).2
  rcases List.mem_cons.mp member with rfl | later
  · have kinds := (kind_of_hasKind heads.isHeading).2.symm.trans (kind_of_hasKind code).2
    cases kinds
  · have chunk : id ∈ doc.chunks members := List.mem_filter.mpr ⟨later, code⟩
    rw [none] at chunk
    cases chunk

theorem codePieces_of_heads {heading code : NodeId} {earlier later : List NodeId}
    (heads : doc.Heads heading (earlier ++ code :: later)) (own : doc.hasKind .codeBlock code) :
    ∃ parent before after, Between doc parent code before after ∧
      (Passed.over (before.map doc.outlineAt)).topic = some (doc.outlineAt heading).topic ∧
      (Passed.over (before.map doc.outlineAt)).chunk = earlier.any (doc.hasKind .codeBlock) ∧
      doc.visitPieces ⟨code, .enter⟩ = .ok (Outline.codePieces
        (Passed.over (before.map doc.outlineAt)) (later.any (doc.hasKind .codeBlock))
        (doc.codeBody code)) := by
  obtain ⟨inside, kind⟩ := kind_of_hasKind own
  obtain ⟨parent, before, after, between, topic, chunk, ahead⟩ := heads.exists_between built
  refine ⟨parent, before, after, between, topic, chunk, ?_⟩
  rw [visitPieces, between.enterPieces_eq built.grown, Outline.enterPieces, kind, codeBody,
    literal?_eq inside, label_outlineAt, ahead]

end Built

theorem any_codeBlock (doc : Document) (ids : List NodeId) :
    ids.any (doc.hasKind .codeBlock) = !(doc.chunks ids).isEmpty := by
  rw [Bool.eq_iff_iff, Bool.not_eq_true', List.isEmpty_eq_false_iff, chunks, List.any_eq_true,
    ne_eq, List.filter_eq_nil_iff]
  simp

theorem exists_of_chunks {doc : Document} {members earlier later : List NodeId} {code : NodeId}
    (split : doc.chunks members = earlier ++ code :: later) :
    ∃ before after, members = before ++ code :: after ∧ doc.hasKind .codeBlock code ∧
      doc.chunks before = earlier ∧ doc.chunks after = later := by
  obtain ⟨first, last, rfl, before, after⟩ := List.filter_eq_append_iff.mp split
  obtain ⟨between, rest, rfl, plain, own, found⟩ := List.filter_eq_cons_iff.mp after
  refine ⟨first ++ between, rest, by simp, own, ?_, found⟩
  rw [chunks, List.filter_append, before, List.filter_eq_nil_iff.mpr plain, List.append_nil]

/-- How the source of a document has the bodies of its functions and the code of its files. -/
structure WritesCode (doc : Document) : Prop where
  headed : ∀ heading, doc.hasKind .heading heading → ∃ members, doc.Heads heading members
  /-- The body opens before the first code block of the section and closes after the last. -/
  chunk : ∀ heading members signature, doc.Heads heading members →
    doc.functionHeading? heading = .ok (some signature) →
    ∀ earlier code later, doc.chunks members = earlier ++ code :: later → ∃ unlisted text,
      (unlisted = [] ∧ text = "" ∨ unlisted = [.noGroups] ∧ text = "()") ∧
      doc.Writes ⟨code, .enter⟩
        ((if earlier = [] then unlisted ++ [.openBody] else []) ++
          .chunk (doc.codeBody code) :: if later = [] then [.closeBody] else [])
        ((if earlier = [] then text ++ String.ofList [' ', '{', '\n'] else "") ++
          doc.codeBody code ++ if later = [] then String.ofList ['}', '\n', '\n'] else "")
  bodiless : ∀ heading members signature, doc.Heads heading members →
    doc.functionHeading? heading = .ok (some signature) → doc.chunks members = [] →
    ∀ id ∈ heading :: members, ∀ phase, ∃ pieces, doc.visitPieces ⟨id, phase⟩ = .ok pieces ∧
      ∀ piece ∈ pieces, ¬piece.isBodyDelimiter
  /-- All delimiters of bodies are those of the code blocks in the sections of functions. -/
  delimiter : ∀ visit pieces, doc.visitPieces visit = .ok pieces →
    ∀ piece ∈ pieces, piece.isBodyDelimiter → visit.phase = .enter ∧
      ∃ heading members signature, doc.Heads heading members ∧
        doc.functionHeading? heading = .ok (some signature) ∧ visit.node ∈ doc.chunks members
  prologue : ∀ heading members file, doc.Heads heading members →
    doc.fileHeading? heading = some file → ∀ code ∈ doc.chunks members,
      doc.Writes ⟨code, .enter⟩ [.prologue (doc.codeBody code)] (doc.codeBody code ++ "\n\n")
  elsewhere : ∀ code, doc.hasKind .codeBlock code →
    (∀ heading members, doc.Heads heading members → code ∈ members →
      doc.functionHeading? heading = .ok none ∧ doc.fileHeading? heading = none) →
    doc.Writes ⟨code, .enter⟩ [] ""

/--
However the nodes were added, the three searches from a code block agree on the section it is in:
each body opens once and closes once, around the texts of the code blocks of one section.
-/
theorem bodies_open_and_close_once {doc : Document} (built : Built doc) : WritesCode doc where
  headed := fun _ own => built.exists_heads own
  chunk := by
    intro heading members signature heads named earlier code later split
    obtain ⟨before, after, rfl, own, rfl, rfl⟩ := exists_of_chunks split
    obtain ⟨_, siblings, _, -, topic, chunk, written⟩ := built.codePieces_of_heads heads own
    rw [(built.functionHeading?_iff heads.isHeading).mp ⟨signature, named⟩] at topic
    generalize Passed.over (siblings.map doc.outlineAt) = passed at topic chunk written
    refine ⟨if passed.groups then [] else [.noGroups], if passed.groups then "" else "()",
      ?_, ?_, ?_⟩
    · cases passed.groups <;> simp
    · rw [written, any_codeBlock, Outline.codePieces, topic, chunk, any_codeBlock]
      cases passed.groups <;> cases doc.chunks before <;> cases doc.chunks after <;> rfl
    · cases passed.groups <;> cases doc.chunks before <;> cases doc.chunks after <;>
        simp only [if_true, reduceIte, reduceCtorEq, Generated.ofPieces_append,
          Generated.ofPieces_cons, Generated.ofPieces_nil, Piece.text, bodyStart, bodyEnd,
          String.append_assoc, String.append_empty, String.empty_append, Bool.false_eq_true]
  bodiless := by
    intro heading members signature heads _ none id member phase
    obtain ⟨pieces, written⟩ := built.exists_visitPieces ⟨id, phase⟩
    exact ⟨pieces, written, built.bodiless heads none member written⟩
  delimiter := by
    intro visit pieces written piece member delimits
    exact built.heads_of_isBodyDelimiter written member delimits
  prologue := by
    intro heading members file heads named code member
    obtain ⟨present, own⟩ := List.mem_filter.mp member
    obtain ⟨earlier, later, rfl⟩ := List.append_of_mem present
    obtain ⟨_, _, _, -, topic, -, written⟩ := built.codePieces_of_heads heads own
    rw [(built.fileHeading?_iff heads.isHeading).mp ⟨file, named⟩] at topic
    rw [Outline.codePieces_of_other (by simp [topic]), if_pos topic] at written
    exact ⟨written, by simp [Piece.text]⟩
  elsewhere := by
    intro code own silent
    obtain ⟨inside, kind⟩ := kind_of_hasKind own
    rcases built.silent_or_between code with nothing | ⟨parent, before, after, between⟩
    · exact ⟨nothing, rfl⟩
    · refine ⟨?_, rfl⟩
      rw [visitPieces, between.enterPieces_eq built.grown, Outline.enterPieces, kind]
      cases known : (Passed.over (before.map doc.outlineAt)).topic with
      | none => simp [Outline.codePieces, known]
      | some topic =>
        obtain ⟨heading, members, heads, member, same⟩ :=
          built.exists_heads_of_topic between (by rw [kind]; decide) known
        obtain ⟨named, unnamed⟩ := silent heading members heads member
        have function : topic ≠ .function := by
          rw [← same, ne_eq, ← built.functionHeading?_iff heads.isHeading, named]
          simp
        have file : topic ≠ .file := by
          rw [← same, ne_eq, ← built.fileHeading?_iff heads.isHeading, unnamed]
          simp
        cases topic <;> simp_all [Outline.codePieces]

def twoChunks : Document :=
  ofOutlines [.heading 1 [.leaf .text "main.go".toList], .leaf .codeBlock "package main\n".toList,
    .heading 2 [.leaf .text "func ".toList, .leaf .codeSpan "F".toList],
    .leaf .codeBlock "a\n".toList, .branch .paragraph [.leaf .text "then".toList],
    .leaf .codeBlock "b\n".toList, .heading 3 [.leaf .text "Notes".toList],
    .leaf .codeBlock "x\n".toList]

theorem bodies_open_and_close_once_twoChunks : Built twoChunks ∧
    twoChunks.Heads 4 [7, 8, 10] ∧ twoChunks.functionHeading? 4 = .ok (some "func F") ∧
    (∃ unlisted text, (unlisted = [] ∧ text = "" ∨ unlisted = [.noGroups] ∧ text = "()") ∧
      twoChunks.Writes ⟨7, .enter⟩ (unlisted ++ [.openBody, .chunk "a\n"])
        (text ++ bodyStart ++ "a\n")) ∧
    twoChunks.Writes ⟨10, .enter⟩ [.chunk "b\n", .closeBody] ("b\n" ++ bodyEnd) ∧
    twoChunks.Writes ⟨3, .enter⟩ [.prologue "package main\n"] "package main\n\n\n" := by
  have built : Built twoChunks := built_ofOutlines _
  have file : twoChunks.Heads 1 [3] :=
    ⟨by decide, by decide, 0, [], [4, 7, 8, 10, 11, 13], by decide, by decide⟩
  have function : twoChunks.Heads 4 [7, 8, 10] :=
    ⟨by decide, by decide, 0, [1, 3], [11, 13], by decide, by decide⟩
  have named : twoChunks.functionHeading? 4 = .ok (some "func F") := by decide
  have code := bodies_open_and_close_once built
  refine ⟨built, function, named, ?_, ?_, ?_⟩
  · obtain ⟨unlisted, text, choice, written⟩ :=
      code.chunk 4 [7, 8, 10] "func F" function named [] 7 [10] (by decide)
    have body : twoChunks.codeBody 7 = "a\n" := by decide
    refine ⟨unlisted, text, choice, ?_⟩
    simpa [body, bodyStart] using written
  · obtain ⟨_, _, -, written⟩ :=
      code.chunk 4 [7, 8, 10] "func F" function named [7] 10 [] (by decide)
    exact written
  · exact code.prologue 1 [3] "main.go" file (by decide) 3 (by decide)

end Document

end Tangle
