import Tangle.Generation
import Tangle.Proofs.Document.Breaking
import Tangle.Proofs.Emission.Agreement

/-!
Generation from a document with broken links. Texts are read ahead of the walk and behind it, and
each reading is a walk of its own that may fail. Yet it starts at a node that the walk from the
root enters: at the node of the visit or at what a search down from it finds, or at an earlier
sibling or at what a search down from that one finds. So no reading fails with anything but what
the walk reports in the end.
-/

namespace Tangle

/-- No failure but with one of these faults. -/
def FailsWithin {α : Type} (faults : BrokenLink → Prop) (outcome : Except BrokenLink α) : Prop :=
  ∀ fault, outcome = .error fault → faults fault

namespace FailsWithin

variable {α β : Type} {faults : BrokenLink → Prop}

theorem ok (value : α) : FailsWithin faults (.ok value) := by
  intro fault failed
  cases failed

theorem bind {outcome : Except BrokenLink α} {next : α → Except BrokenLink β}
    (first : FailsWithin faults outcome)
    (second : ∀ value, outcome = .ok value → FailsWithin faults (next value)) :
    FailsWithin faults (outcome >>= next) := by
  intro fault failed
  cases outcome with
  | error other =>
    cases failed
    exact first fault rfl
  | ok value => exact second value rfl fault failed

theorem map {outcome : Except BrokenLink α} (f : α → β) (first : FailsWithin faults outcome) :
    FailsWithin faults (f <$> outcome) := by
  intro fault failed
  cases outcome with
  | error other =>
    cases failed
    exact first fault rfl
  | ok value => cases failed

theorem mapM {items : List α} {f : α → Except BrokenLink β}
    (each : ∀ item ∈ items, FailsWithin faults (f item)) : FailsWithin faults (items.mapM f) := by
  induction items with
  | nil => exact ok []
  | cons item rest ih =>
    rw [List.mapM_cons]
    apply bind (each item List.mem_cons_self)
    intro value _
    apply bind (ih fun other member => each other (List.mem_cons_of_mem item member))
    intro values _
    exact ok (value :: values)

end FailsWithin

theorem exists_ok_of_mapM {α β ε : Type} {items : List α} {f : α → Except ε β} {values : List β}
    (done : items.mapM f = .ok values) : ∀ item ∈ items, ∃ value, f item = .ok value := by
  induction items generalizing values with
  | nil => simp
  | cons item rest ih =>
    rw [List.mapM_cons] at done
    cases first : f item with
    | error fault =>
      rw [first] at done
      cases done
    | ok value =>
      cases later : rest.mapM f with
      | error fault =>
        rw [first, later] at done
        cases done
      | ok others => exact List.forall_mem_cons.mpr ⟨⟨value, first⟩, ih later⟩

namespace Document

theorem inSection?_eq (doc : Document) (id : NodeId) (direction : Direction) (kind : Kind) :
    doc.inSection? id direction kind =
      .ok ((doc.siblingsBefore id direction .heading).find? (doc.hasKind kind)) :=
  doc.findBounded?_unread id kind direction .heading

theorem failsWithin_inSection? {faults : BrokenLink → Prop} (doc : Document) (id : NodeId)
    (direction : Direction) (kind : Kind) :
    FailsWithin faults (doc.inSection? id direction kind) := by
  rw [inSection?_eq]
  exact .ok _

theorem failsWithin_leafText {faults : BrokenLink → Prop} {doc : Document} {id : NodeId}
    (known : ∀ fault, .error fault ∈ doc.walk id → faults fault) :
    FailsWithin faults (doc.leafText id) := by
  unfold leafText
  refine .bind (.mapM ?_) fun visits _ => .ok _
  intro item member fault failed
  exact known fault (failed ▸ member)

theorem failsWithin_bodyOpening {faults : BrokenLink → Prop} (doc : Document) (id : NodeId) :
    FailsWithin faults (doc.bodyOpening id) := by
  have list : ∀ group, FailsWithin faults (doc.hasGroupList group id) := fun group =>
    .bind (doc.failsWithin_inSection? id .backward .list) fun _ _ => .ok _
  unfold bodyOpening
  refine .bind (list .parameters) fun parameters _ => ?_
  cases parameters with
  | true => exact .ok _
  | false =>
    refine .bind (list .returns) fun returns _ => ?_
    cases returns with
    | true => exact .ok _
    | false => exact .ok _

theorem failsWithin_chunkPieces {faults : BrokenLink → Prop} (doc : Document) (id : NodeId)
    (body : String) : FailsWithin faults (doc.chunkPieces id body) := by
  have ending : ∀ opening : List Piece, FailsWithin faults (do
      let later ← doc.inSection? id .forward .codeBlock
      return opening ++ .chunk body :: (if later.isNone then [.closeBody] else [])) := fun _ =>
    .bind (doc.failsWithin_inSection? id .forward .codeBlock) fun _ _ => .ok _
  unfold chunkPieces
  refine .bind (doc.failsWithin_inSection? id .backward .codeBlock) fun before _ => ?_
  cases before with
  | none => exact .bind (doc.failsWithin_bodyOpening id) fun opening _ => ending opening
  | some chunk => exact .bind (.ok []) fun opening _ => ending opening

theorem failsWithin_groupOpening {faults : BrokenLink → Prop} (doc : Document) (group : Group)
    (id : NodeId) : FailsWithin faults (doc.groupOpening group id) := by
  unfold groupOpening
  split
  · cases group with
    | parameters => exact .ok _
    | returns =>
      exact .bind (doc.failsWithin_inSection? id .backward .listItem) fun before _ => .ok _
  · exact .ok []

namespace Severed

variable {doc broken : Document} (severed : Severed doc broken) (built : Built doc) {id : Nat}
  (entered : .ok ⟨id, .enter⟩ ∈ broken.walk root)

include severed built entered

theorem leafText_fails : FailsWithin (Reports broken root) (broken.leafText id) :=
  failsWithin_leafText fun _ member => severed.reports_of_inner built entered member

theorem functionHeading?_fails :
    FailsWithin (Reports broken root) (broken.functionHeading? id) := by
  unfold functionHeading?
  split
  · exact .map some (severed.leafText_fails built entered)
  · exact .ok none

theorem entryText?_fails (group : Group) :
    FailsWithin (Reports broken root) (broken.entryText? group id) := by
  unfold entryText?
  split
  · cases search : broken.findDescendant? id .codeSpan with
    | some code =>
      have reached := severed.entered_descendant built entered search
      exact .map some (severed.leafText_fails built reached)
    | none => exact .ok none
  · exact .ok none

theorem functionScope?_fails : FailsWithin (Reports broken root) (broken.functionScope? id) := by
  unfold functionScope?
  cases owned : broken.owner? id with
  | none => exact .ok none
  | some heading =>
    have search : broken.findSibling? id .backward .heading = some heading := by
      unfold owner? at owned
      split at owned
      · exact owned
      · cases owned
    have member := List.mem_of_find?_eq_some search
    have inside : heading < broken.size := lt_size_of_hasKind (List.find?_some search)
    exact .map _ (severed.functionHeading?_fails built
      (severed.entered_siblings built entered heading member inside))

theorem followsEntry_fails (group : Group) :
    FailsWithin (Reports broken root) (broken.followsEntry group id) := by
  unfold followsEntry
  refine .bind (broken.failsWithin_inSection? id .backward .listItem) fun found search => ?_
  cases found with
  | none => exact .ok false
  | some item =>
    rw [inSection?_eq, Except.ok.injEq] at search
    have near := List.mem_of_find?_eq_some search
    have member : item ∈ broken.siblings id .backward := (List.takeWhile_sublist _).subset near
    have inside : item < broken.size := lt_size_of_hasKind (List.find?_some search)
    exact .bind (severed.entryText?_fails built
      (severed.entered_siblings built entered item member inside) group) fun _ _ => .ok _

theorem codePieces_fails : FailsWithin (Reports broken root) (broken.codePieces id) := by
  unfold codePieces
  refine .bind (severed.functionScope?_fails built entered) fun scope _ => ?_
  cases scope with
  | none => exact .ok _
  | some block => exact .bind (broken.failsWithin_chunkPieces id block.body) fun _ _ => .ok _

theorem headingPieces_fails : FailsWithin (Reports broken root) (broken.headingPieces id) :=
  .bind (severed.functionHeading?_fails built entered) fun _ _ => .ok _

theorem entryPieces_fails (group : Group) :
    FailsWithin (Reports broken root) (broken.entryPieces group id) := by
  unfold entryPieces
  refine .bind (severed.entryText?_fails built entered group) fun text _ => ?_
  cases text with
  | none => exact .ok []
  | some text => exact .bind (severed.followsEntry_fails built entered group) fun _ _ => .ok _

theorem itemPieces_fails : FailsWithin (Reports broken root) (broken.itemPieces id) := by
  unfold itemPieces
  refine .bind (.mapM ?_) fun _ _ => .ok _
  intro group _
  exact .bind (broken.failsWithin_groupOpening group id) fun _ _ =>
    .bind (severed.entryPieces_fails built entered group) fun _ _ => .ok _

theorem enterPieces_fails : FailsWithin (Reports broken root) (broken.enterPieces id) := by
  unfold enterPieces
  split
  · exact severed.codePieces_fails built entered
  · exact severed.headingPieces_fails built entered
  · exact severed.itemPieces_fails built entered
  · exact .ok []

end Severed

theorem not_error_mem_of_emit {doc : Document} {generated : Generated}
    (done : doc.emit = .ok generated) (fault : BrokenLink) : .error fault ∉ doc.walk root := by
  intro member
  unfold emit pieces at done
  cases written : (doc.walk root).mapM fun item => do doc.visitPieces (← item) with
  | error other =>
    rw [written] at done
    cases done
  | ok pieces =>
    obtain ⟨value, fine⟩ := exists_ok_of_mapM written _ member
    cases fine

namespace Severed

variable {doc broken : Document} (severed : Severed doc broken) (built : Built doc)

include severed built

/-- Nothing that is done at a visit fails with anything but what the walk reports. -/
theorem visitPieces_fails {visit : Visit} (made : .ok visit ∈ broken.walk root) :
    FailsWithin (Reports broken root) (broken.visitPieces visit) := by
  rcases visit with ⟨id, - | -⟩
  · exact severed.enterPieces_fails built made
  · exact .ok _

theorem emit_fails : FailsWithin (Reports broken root) broken.emit := by
  unfold emit pieces
  refine .map _ (.bind (.mapM ?_) fun _ _ => .ok _)
  intro item member
  refine .bind ?_ ?_
  · intro fault failed
    exact severed.reports_of_mem built built.root_lt (failed ▸ member)
  · intro visit made
    exact severed.visitPieces_fails built (made ▸ member)

theorem emit_error_iff (fault : BrokenLink) :
    broken.emit = .error fault ↔ Reports broken root fault := by
  constructor
  · exact severed.emit_fails built fault
  · intro reports
    cases outcome : broken.emit with
    | ok generated =>
      exact absurd (List.mem_of_getLast? reports) (not_error_mem_of_emit outcome fault)
    | error other =>
      have known : Reports broken root other := severed.emit_fails built other outcome
      rw [Reports, reports, Option.some.injEq, Except.error.injEq] at known
      rw [known]

theorem emit_ok_iff :
    (∃ generated, broken.emit = .ok generated) ↔ ∀ fault, .error fault ∉ broken.walk root := by
  constructor
  · rintro ⟨generated, done⟩
    exact not_error_mem_of_emit done
  · intro intact
    cases outcome : broken.emit with
    | ok generated => exact ⟨generated, rfl⟩
    | error fault =>
      have reports := (severed.emit_error_iff built fault).mp outcome
      exact absurd (List.mem_of_getLast? reports) (intact fault)

end Severed

theorem generate_error_iff (doc : Document) (name : String) (fault : BrokenLink) :
    doc.generate name = .error fault ↔ doc.emit = .error fault := by
  unfold generate
  cases doc.emit with
  | error other => rfl
  | ok generated => constructor <;> intro failed <;> cases failed

theorem generate_ok_iff (doc : Document) (name : String) :
    (∃ generated, doc.generate name = .ok generated) ↔ ∃ generated, doc.emit = .ok generated := by
  unfold generate
  cases doc.emit with
  | error fault => constructor <;> rintro ⟨generated, done⟩ <;> cases done
  | ok generated => exact ⟨fun _ => ⟨generated, rfl⟩, fun _ => ⟨_, rfl⟩⟩

/-- Generation from a document fails where the walk from the root does, and with the same fault. -/
structure FailsAsWalked (doc : Document) : Prop where
  walk_ends : ∃ visits, Trail (doc.onwards root) (some ⟨root, .enter⟩) visits ∧
    doc.walk root = visits.map doc.resolve
  emit_error : ∀ fault, doc.emit = .error fault ↔ Reports doc root fault
  emit_ok : (∃ generated, doc.emit = .ok generated) ↔ ∀ fault, .error fault ∉ doc.walk root
  generate_error : ∀ name fault, doc.generate name = .error fault ↔ Reports doc root fault
  generate_ok : ∀ name, (∃ generated, doc.generate name = .ok generated) ↔
    ∀ fault, .error fault ∉ doc.walk root
  /-- No text that is read at a visit brings up another fault. -/
  visit_error : ∀ visit fault, .ok visit ∈ doc.walk root → doc.visitPieces visit = .error fault →
    Reports doc root fault
  /-- A first child that is not there is reported once its parent is entered. -/
  first_child : ∀ id child : Nat, .ok ⟨id, .enter⟩ ∈ doc.walk root →
    doc.firstChild? id = some child → doc.size ≤ child → Reports doc root ⟨child⟩
  /-- A next sibling that is not there is reported once the node before it is left. -/
  next_sibling : ∀ id sibling : Nat, .ok ⟨id, .exit⟩ ∈ doc.walk root → id ≠ root →
    doc.next? id = some sibling → doc.size ≤ sibling → Reports doc root ⟨sibling⟩

/--
However many links of a built document are made to lead out of it, generation fails if and only
if the walk from the root meets one of them, and names the one that the walk meets.
-/
theorem fails_as_walked_of_redirect {doc : Document} (built : Built doc)
    (changes : List Redirection) (outside : ∀ change ∈ changes, doc.size ≤ change.target) :
    FailsAsWalked (doc.redirect changes) := by
  have severed := doc.severed_redirect changes outside
  have sizes := severed.size_eq
  refine ⟨?_, severed.emit_error_iff built, severed.emit_ok_iff built, ?_, ?_, ?_, ?_, ?_⟩
  · obtain ⟨made, lost, course⟩ := severed.exists_course built built.root_lt
    exact ⟨made ++ lost, course.trail, course.walk_eq⟩
  · intro name fault
    rw [generate_error_iff]
    exact severed.emit_error_iff built fault
  · intro name
    rw [generate_ok_iff]
    exact severed.emit_ok_iff built
  · intro visit fault made failed
    exact severed.visitPieces_fails built made fault failed
  · intro id child entered first gone
    have there := lt_size_of_link? .firstChild first
    have moves : (doc.redirect changes).onwards root ⟨id, .enter⟩ = some ⟨child, .enter⟩ := by
      rw [onwards_of_enter there, first]
    exact severed.reports_of_onwards built built.root_lt entered moves (sizes ▸ gone)
  · intro id sibling left other next gone
    have there := lt_size_of_link? .next next
    have moves : (doc.redirect changes).onwards root ⟨id, .exit⟩ = some ⟨sibling, .enter⟩ := by
      rw [onwards_of_exit there other, next]
    exact severed.reports_of_onwards built built.root_lt left moves (sizes ▸ gone)

def oneParameter : Document :=
  (((((((empty.append root { kind := .list }).append 1 { kind := .listItem }).append 2
    { kind := .paragraph }).append 3 { kind := .text, literal := some "parameters" }).append 2
    { kind := .list }).append 5 { kind := .listItem }).append 6 { kind := .paragraph }).append 7
    { kind := .codeSpan, literal := some "a int" }

/-- The code span is read before the walk comes to it, and the last link is never followed. -/
def brokenBelowCode : List Redirection :=
  [⟨8, .firstChild, 40⟩, ⟨7, .prev, 50⟩, ⟨2, .next, 60⟩]

theorem fails_as_walked_of_redirect_oneParameter : Built oneParameter ∧
    (∀ change ∈ brokenBelowCode, oneParameter.size ≤ change.target) ∧
    (oneParameter.redirect brokenBelowCode).visitPieces ⟨6, .enter⟩ = .error ⟨40⟩ ∧
    (oneParameter.redirect brokenBelowCode).emit = .error ⟨40⟩ := by
  have built : Built oneParameter :=
    .append (.append (.append (.append (.append (.append (.append (.append .empty (by decide) _)
      (by decide) _) (by decide) _) (by decide) _) (by decide) _) (by decide) _) (by decide) _)
      (by decide) _
  have outside : ∀ change ∈ brokenBelowCode, oneParameter.size ≤ change.target := by decide
  have reports : Reports (oneParameter.redirect brokenBelowCode) root ⟨40⟩ := by
    unfold Reports
    decide
  refine ⟨built, outside, by decide, ?_⟩
  exact ((fails_as_walked_of_redirect built brokenBelowCode outside).emit_error ⟨40⟩).mpr reports

end Document

end Tangle
