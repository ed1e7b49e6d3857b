import Tangle.Proofs.Document.Touring

/-!
Documents with broken links. Some links of a built document are made to lead out of it, and all
others stay. A walk then follows the tour of the unbroken document until it gets lost, and the link
where it got lost is what it reports. The walk from the root gets lost wherever a walk does that
starts at a node it enters; and it enters the earlier siblings of each node that it enters, as well
as what a search down from that node finds.
-/

namespace Tangle

namespace Trail

variable {σ : Type} {step : σ → Option σ} {due : Option σ} {states : List σ}

theorem mem_of_step (trail : Trail step due states) {state next : σ} (member : state ∈ states)
    (moves : step state = some next) : next ∈ states := by
  obtain ⟨before, rest, rfl⟩ := List.append_of_mem member
  cases trail.onward with
  | move further =>
    rw [moves] at further
    cases further
    simp

theorem getLast?_of_end (trail : Trail step due states) {state : σ} (member : state ∈ states)
    (ends : step state = none) : states.getLast? = some state := by
  obtain ⟨before, rest, rfl⟩ := List.append_of_mem member
  cases trail.onward with
  | move further =>
    rw [ends] at further
    cases further
    exact List.getLast?_concat ..

theorem forall_of_step (trail : Trail step due states) {holds : σ → Prop}
    (start : ∀ state ∈ due, holds state)
    (kept : ∀ state ∈ states, ∀ next ∈ step state, holds state → holds next) :
    ∀ state ∈ states, holds state := by
  induction trail with
  | done => simp
  | @move state rest further ih =>
    have first := start state rfl
    refine List.forall_mem_cons.mpr ⟨first, ih ?_ ?_⟩
    · intro next moves
      exact kept state List.mem_cons_self next moves first
    · intro other member
      exact kept other (List.mem_cons_of_mem state member)

/-- A step that follows another one unless it gets lost leaves a part of the trail of that one. -/
theorem until_lost (trail : Trail step due states) {other : σ → Option σ} {lost : σ → Prop}
    (ends : ∀ state, lost state → other state = none)
    (follows : ∀ state ∈ states, other state = step state ∨
      ∃ next, other state = some next ∧ lost next) :
    ∃ before astray, Trail other due (before ++ astray) ∧ before <+: states ∧
      ∀ state ∈ astray, lost state := by
  induction trail with
  | done => exact ⟨[], [], .done, List.nil_prefix, by simp⟩
  | @move state rest further ih =>
    rcases follows state List.mem_cons_self with same | ⟨next, moves, away⟩
    · obtain ⟨before, astray, trail, along, all⟩ :=
        ih fun later member => follows later (List.mem_cons_of_mem state member)
      rw [← same] at trail
      exact ⟨state :: before, astray, .move trail, List.cons_prefix_cons.mpr ⟨rfl, along⟩, all⟩
    · have dead : Trail other (other next) [] := by
        rw [ends next away]
        exact .done
      have gone : Trail other (other state) [next] := by
        rw [moves]
        exact .move dead
      exact ⟨[state], [next], .move gone, by simp, by simpa using away⟩

end Trail

theorem Node.link_setLink (node : Node) (target : Option NodeId) (link other : Link) :
    (node.setLink target link).link other = if link = other then target else node.link other := by
  cases link <;> cases other <;> rfl

namespace Document

structure Redirection where
  node : NodeId
  link : Link
  target : NodeId
  deriving DecidableEq, Repr

def redirect (doc : Document) (changes : List Redirection) : Document :=
  changes.foldl
    (fun changed change => changed.setLink change.node change.link (some change.target)) doc

/-- The links of a broken document say what they said before or lead out. -/
structure Severed (doc broken : Document) : Prop where
  size_eq : broken.size = doc.size
  links : ∀ (link : Link) (id : Nat), broken.link? link id = doc.link? link id ∨
    ∃ target : Nat, broken.link? link id = some target ∧ doc.size ≤ target

theorem link?_setLink (doc : Document) (id : Nat) (link : Link) (target : Option NodeId)
    (other : Link) (place : Nat) : (doc.setLink id link target).link? other place =
      if id = place ∧ link = other then (doc.get? place).bind fun _ => target
      else doc.link? other place := by
  unfold link? setLink
  rw [get?_modify]
  by_cases here : id = place
  · rw [if_pos here]
    cases doc.get? place with
    | none => split_ifs <;> rfl
    | some node =>
      rw [Option.map_some, Option.bind_some, Option.bind_some, Option.bind_some, Node.link_setLink]
      simp only [here, true_and]
  · rw [if_neg here, if_neg fun both => here both.1]

theorem Severed.setLink {doc broken : Document} (severed : Severed doc broken) (id : NodeId)
    (link : Link) {target : Nat} (outside : doc.size ≤ target) :
    Severed doc (broken.setLink id link (some target)) := by
  refine ⟨by rw [size_setLink, severed.size_eq], ?_⟩
  intro other place
  rw [link?_setLink]
  by_cases changed : id = place ∧ link = other
  · rw [if_pos changed]
    cases found : broken.get? place with
    | none =>
      have before := severed.links other place
      rw [link?, found] at before
      exact before
    | some node => exact .inr ⟨target, rfl, outside⟩
  · rw [if_neg changed]
    exact severed.links other place

theorem severed_redirect (doc : Document) (changes : List Redirection)
    (outside : ∀ change ∈ changes, doc.size ≤ change.target) :
    Severed doc (doc.redirect changes) := by
  have general : ∀ broken, Severed doc broken → Severed doc (broken.redirect changes) := by
    induction changes with
    | nil => exact fun broken severed => severed
    | cons change rest ih =>
      intro broken severed
      apply ih fun other member => outside other (List.mem_cons_of_mem change member)
      exact severed.setLink change.node change.link (outside change List.mem_cons_self)
  exact general doc ⟨rfl, fun _ _ => .inl rfl⟩

theorem get?_eq_none {doc : Document} {id : Nat} (outside : doc.size ≤ id) :
    doc.get? id = none := by
  unfold get?
  exact Array.getElem?_eq_none outside

theorem lt_size_of_hasKind {doc : Document} {kind : Kind} {id : Nat} (has : doc.hasKind kind id) :
    id < doc.size := by
  have known : doc.kind? id = some kind := eq_of_beq has
  obtain ⟨node, found, -⟩ := Option.map_eq_some_iff.mp known
  exact lt_size_of_get? found

theorem forall_mem_follow (doc : Document) {link : Node → Option NodeId} {holds : Nat → Prop}
    {due : Option NodeId} (start : ∀ id : Nat, due = some id → id < doc.size → holds id)
    (kept : ∀ id, holds id → ∀ next : Nat, (doc.get? id).bind link = some next → next < doc.size →
      holds next) :
    ∀ id ∈ doc.follow link due, id < doc.size → holds id := by
  unfold follow
  induction doc.size + 1 generalizing due with
  | zero => simp [chain]
  | succ steps ih =>
    cases due with
    | none => simp [chain]
    | some first =>
      rw [chain]
      refine List.forall_mem_cons.mpr ⟨start first rfl, ih ?_⟩
      intro next leads inside
      obtain ⟨node, found, -⟩ := Option.bind_eq_some_iff.mp leads
      exact kept first (start first rfl (lt_size_of_get? found)) next leads inside

section Steps

variable {doc : Document} {id : Nat}

theorem onwards_of_enter (inside : id < doc.size) (start : NodeId) :
    doc.onwards start ⟨id, .enter⟩ = some (match doc.firstChild? id with
      | some child => ⟨child, .enter⟩
      | none => ⟨id, .exit⟩) := by
  obtain ⟨node, found⟩ := exists_get? inside
  rw [onwards, firstChild?, found]
  rfl

theorem onwards_of_exit (inside : id < doc.size) {start : NodeId} (other : id ≠ start) :
    doc.onwards start ⟨id, .exit⟩ = match doc.next? id with
      | some sibling => some ⟨sibling, .enter⟩
      | none => (doc.parent? id).map (⟨·, .exit⟩) := by
  obtain ⟨node, found⟩ := exists_get? inside
  rw [onwards, next?, parent?, found, Option.bind_some, after, if_neg other]
  rfl

theorem onwards_congr {start other : NodeId} {visit : Visit} (first : visit ≠ ⟨start, .exit⟩)
    (second : visit ≠ ⟨other, .exit⟩) : doc.onwards start visit = doc.onwards other visit := by
  unfold onwards
  congr 1
  funext node
  rcases visit with ⟨id, - | -⟩
  · rfl
  · have left : id ≠ start := fun same => first (by rw [same])
    have right : id ≠ other := fun same => second (by rw [same])
    rw [after, after, if_neg left, if_neg right]

end Steps

namespace Severed

variable {doc broken : Document} (severed : Severed doc broken)

include severed

theorem exists_node {id : Nat} (inside : id < doc.size) : ∃ node, broken.get? id = some node :=
  exists_get? (severed.size_eq ▸ inside)

theorem no_node {id : Nat} (outside : doc.size ≤ id) : broken.get? id = none :=
  get?_eq_none (severed.size_eq ▸ outside)

theorem link_of_inside (link : Link) {id target : Nat} (leads : broken.link? link id = some target)
    (inside : target < doc.size) : doc.link? link id = some target := by
  rcases severed.links link id with same | ⟨away, other, outside⟩
  · rw [← same, leads]
  · rw [leads, Option.some.injEq] at other
    omega

theorem onwards_of_lost (start : NodeId) {visit : Visit} (outside : doc.size ≤ visit.node) :
    broken.onwards start visit = none := by
  rw [onwards, severed.no_node outside, Option.bind_none]

theorem step_cases (start : NodeId) (visit : Visit) :
    broken.onwards start visit = doc.onwards start visit ∨
      ∃ lost, broken.onwards start visit = some lost ∧ doc.size ≤ lost.node := by
  by_cases inside : visit.node < doc.size
  · have inside' : visit.node < broken.size := severed.size_eq ▸ inside
    rcases visit with ⟨id, - | -⟩
    · rw [onwards_of_enter inside, onwards_of_enter inside']
      rcases severed.links .firstChild id with same | ⟨child, leads, outside⟩
      · have first : broken.firstChild? id = doc.firstChild? id := same
        rw [first]
        exact .inl rfl
      · have first : broken.firstChild? id = some child := leads
        rw [first]
        exact .inr ⟨_, rfl, outside⟩
    · by_cases ends : id = start
      · rw [ends, onwards_of_end, onwards_of_end]
        exact .inl rfl
      · rw [onwards_of_exit inside ends, onwards_of_exit inside' ends]
        rcases severed.links .next id with same | ⟨sibling, leads, outside⟩
        · have next : broken.next? id = doc.next? id := same
          rw [next]
          cases doc.next? id with
          | some sibling => exact .inl rfl
          | none =>
            rcases severed.links .parent id with same | ⟨above, leads, outside⟩
            · have parent : broken.parent? id = doc.parent? id := same
              rw [parent]
              exact .inl rfl
            · have parent : broken.parent? id = some above := leads
              rw [parent]
              exact .inr ⟨_, rfl, outside⟩
        · have next : broken.next? id = some sibling := leads
          rw [next]
          exact .inr ⟨_, rfl, outside⟩
  · have outside : doc.size ≤ visit.node := Nat.not_lt.mp inside
    left
    rw [severed.onwards_of_lost start outside, onwards, get?_eq_none outside, Option.bind_none]

end Severed

/-- The visits of a walk in a broken document: those it makes and the one where it gets lost. -/
structure Course (doc broken : Document) (start : Nat) (made lost : List Visit) : Prop where
  trail : Trail (broken.onwards start) (some ⟨start, .enter⟩) (made ++ lost)
  along : made <+: doc.tour start
  astray : ∀ visit ∈ lost, doc.size ≤ visit.node

theorem Severed.exists_course {doc broken : Document} (severed : Severed doc broken)
    (built : Built doc) {start : Nat} (inside : start < doc.size) :
    ∃ made lost, Course doc broken start made lost := by
  obtain ⟨made, lost, trail, along, astray⟩ := (built.trail_of_tour inside).until_lost
    (fun _ outside => severed.onwards_of_lost start outside)
    (fun visit _ => severed.step_cases start visit)
  exact ⟨made, lost, trail, along, astray⟩

def Reports (doc : Document) (start : NodeId) (fault : BrokenLink) : Prop :=
  (doc.walk start).getLast? = some (.error fault)

namespace Course

variable {doc broken : Document} {start : Nat} {made lost : List Visit}
  (course : Course doc broken start made lost) (severed : Severed doc broken)
  (inside : start < doc.size)

include course

theorem walk_eq : broken.walk start = (made ++ lost).map broken.resolve :=
  broken.walk_of_trail start course.trail

theorem next_mem {visit next : Visit} (member : visit ∈ made)
    (moves : broken.onwards start visit = some next) : next ∈ made ∨ next ∈ lost :=
  List.mem_append.mp (course.trail.mem_of_step (List.mem_append_left lost member) moves)

include inside

theorem made_lt {visit : Visit} (member : visit ∈ made) : visit.node < doc.size :=
  mem_tour_lt inside visit (course.along.subset member)

include severed

theorem resolve_made {visit : Visit} (member : visit ∈ made) :
    broken.resolve visit = .ok visit := by
  obtain ⟨node, found⟩ := severed.exists_node (course.made_lt inside member)
  rw [resolve, found]

omit inside in
theorem resolve_lost {visit : Visit} (member : visit ∈ lost) :
    broken.resolve visit = .error ⟨visit.node⟩ := by
  rw [resolve, severed.no_node (course.astray visit member)]

theorem ok_mem_iff {visit : Visit} : .ok visit ∈ broken.walk start ↔ visit ∈ made := by
  rw [course.walk_eq, List.mem_map]
  constructor
  · rintro ⟨other, member, resolved⟩
    rcases List.mem_append.mp member with early | late
    · rw [course.resolve_made severed inside early, Except.ok.injEq] at resolved
      exact resolved ▸ early
    · rw [course.resolve_lost severed late] at resolved
      cases resolved
  · intro member
    exact ⟨visit, List.mem_append_left lost member, course.resolve_made severed inside member⟩

theorem error_mem {fault : BrokenLink} (member : .error fault ∈ broken.walk start) :
    ∃ visit ∈ lost, fault = ⟨visit.node⟩ := by
  rw [course.walk_eq, List.mem_map] at member
  obtain ⟨visit, present, resolved⟩ := member
  rcases List.mem_append.mp present with early | late
  · rw [course.resolve_made severed inside early] at resolved
    cases resolved
  · rw [course.resolve_lost severed late, Except.error.injEq] at resolved
    exact ⟨visit, late, resolved.symm⟩

omit inside in
theorem reports {visit : Visit} (member : visit ∈ lost) : Reports broken start ⟨visit.node⟩ := by
  have ends := severed.onwards_of_lost start (course.astray visit member)
  rw [Reports, course.walk_eq, List.getLast?_map,
    course.trail.getLast?_of_end (List.mem_append_right made member) ends, Option.map_some,
    course.resolve_lost severed member]

end Course

namespace Severed

variable {doc broken : Document} (severed : Severed doc broken) (built : Built doc)

include severed built

theorem reports_of_mem {start : Nat} (inside : start < doc.size) {fault : BrokenLink}
    (member : .error fault ∈ broken.walk start) : Reports broken start fault := by
  obtain ⟨made, lost, course⟩ := severed.exists_course built inside
  obtain ⟨visit, present, rfl⟩ := course.error_mem severed inside member
  exact course.reports severed present

theorem ok_of_onwards {start : Nat} (inside : start < doc.size) {visit next : Visit}
    (made : .ok visit ∈ broken.walk start) (moves : broken.onwards start visit = some next)
    (there : next.node < doc.size) : .ok next ∈ broken.walk start := by
  obtain ⟨visits, lost, course⟩ := severed.exists_course built inside
  rw [course.ok_mem_iff severed inside] at made ⊢
  rcases course.next_mem made moves with early | late
  · exact early
  · exact absurd there (Nat.not_lt.mpr (course.astray next late))

theorem reports_of_onwards {start : Nat} (inside : start < doc.size) {visit next : Visit}
    (made : .ok visit ∈ broken.walk start) (moves : broken.onwards start visit = some next)
    (gone : doc.size ≤ next.node) : Reports broken start ⟨next.node⟩ := by
  obtain ⟨visits, lost, course⟩ := severed.exists_course built inside
  rw [course.ok_mem_iff severed inside] at made
  rcases course.next_mem made moves with early | late
  · exact absurd (course.made_lt inside early) (Nat.not_lt.mpr gone)
  · exact course.reports severed late

theorem lt_of_ok {start : Nat} (inside : start < doc.size) {visit : Visit}
    (made : .ok visit ∈ broken.walk start) : visit.node < doc.size := by
  obtain ⟨visits, lost, course⟩ := severed.exists_course built inside
  exact course.made_lt inside ((course.ok_mem_iff severed inside).mp made)

theorem onwards_root {id : Nat} {made lost : List Visit}
    (course : Course doc broken id made lost) {visit next : Visit} (present : visit ∈ made ++ lost)
    (moves : broken.onwards id visit = some next) : broken.onwards root visit = some next := by
  have early : visit ∈ made := by
    rcases List.mem_append.mp present with early | late
    · exact early
    · rw [severed.onwards_of_lost id (course.astray visit late)] at moves
      cases moves
  have top : visit ≠ ⟨id, .exit⟩ := by
    rintro rfl
    rw [broken.onwards_of_end] at moves
    cases moves
  have later : id ≤ visit.node := built.within_le (.of_mem_tour (course.along.subset early))
  have other : visit ≠ ⟨root, .exit⟩ := by
    rintro rfl
    have same : id = root := Nat.le_zero.mp later
    exact top (by rw [same])
  rw [← moves]
  exact onwards_congr other top

/-- What a walk reports is reported by the walk from the root if that enters where it starts. -/
theorem reports_of_inner {id : Nat} (entered : .ok ⟨id, .enter⟩ ∈ broken.walk root)
    {fault : BrokenLink} (member : .error fault ∈ broken.walk id) : Reports broken root fault := by
  have inside : id < doc.size := severed.lt_of_ok built built.root_lt entered
  obtain ⟨made, lost, whole⟩ := severed.exists_course built built.root_lt
  obtain ⟨made', lost', inner⟩ := severed.exists_course built inside
  rw [whole.ok_mem_iff severed built.root_lt] at entered
  have covered : ∀ visit ∈ made' ++ lost', visit ∈ made ++ lost := by
    refine inner.trail.forall_of_step ?_ ?_
    · intro visit first
      rw [← Option.mem_some.mp first]
      exact List.mem_append_left lost entered
    · intro visit present next moves known
      exact whole.trail.mem_of_step known (severed.onwards_root built inner present moves)
  obtain ⟨visit, late, rfl⟩ := inner.error_mem severed inside member
  rcases List.mem_append.mp (covered visit (List.mem_append_right made' late)) with early | lost
  · exact absurd (whole.made_lt built.root_lt early) (Nat.not_lt.mpr (inner.astray visit late))
  · exact whole.reports severed lost

theorem entered_prev {id sibling : Nat} (entered : .ok ⟨id, .enter⟩ ∈ broken.walk root)
    (prev : broken.prev? id = some sibling) (inside : sibling < doc.size) :
    .ok ⟨sibling, .enter⟩ ∈ broken.walk root := by
  obtain ⟨before, after, split, earlier⟩ :=
    built.tour_of_prev (severed.link_of_inside .prev prev inside)
  obtain ⟨made, lost, course⟩ := severed.exists_course built built.root_lt
  rw [course.ok_mem_iff severed built.root_lt] at entered ⊢
  obtain ⟨early, late, rfl⟩ := List.append_of_mem entered
  obtain ⟨rest, whole⟩ := course.along
  rw [List.append_assoc, List.cons_append] at whole
  rw [built.tour_split_unique built.root_lt whole.symm split]
  exact List.mem_append_left _ earlier

theorem entered_firstChild {id child : Nat} (entered : .ok ⟨id, .enter⟩ ∈ broken.walk root)
    (first : broken.firstChild? id = some child) (inside : child < doc.size) :
    .ok ⟨child, .enter⟩ ∈ broken.walk root := by
  have there : id < broken.size := lt_size_of_link? .firstChild first
  refine severed.ok_of_onwards built built.root_lt entered ?_ inside
  rw [onwards_of_enter there, first]

theorem entered_next {id sibling : Nat} (entered : .ok ⟨id, .enter⟩ ∈ broken.walk root)
    (other : id ≠ root) (childless : broken.firstChild? id = none)
    (next : broken.next? id = some sibling) (inside : sibling < doc.size) :
    .ok ⟨sibling, .enter⟩ ∈ broken.walk root := by
  have there : id < broken.size := lt_size_of_link? .next next
  have left : .ok ⟨id, .exit⟩ ∈ broken.walk root := by
    refine severed.ok_of_onwards built built.root_lt entered ?_ (severed.size_eq ▸ there)
    rw [onwards_of_enter there, childless]
  refine severed.ok_of_onwards built built.root_lt left ?_ inside
  rw [onwards_of_exit there other, next]

theorem ne_root_of_link (link : Link) (aside : link ≠ .parent) {id target : Nat}
    (leads : broken.link? link id = some target) (inside : target < doc.size) : target ≠ root := by
  obtain ⟨parent, member⟩ :=
    built.mem_offspring_of_link (severed.link_of_inside link leads inside) aside
  have later := (mem_offspring.mp member).2.2
  exact Nat.ne_of_gt (Nat.lt_of_le_of_lt (Nat.zero_le parent) later)

theorem entered_siblings {id : Nat} (entered : .ok ⟨id, .enter⟩ ∈ broken.walk root) :
    ∀ sibling ∈ broken.siblings id .backward, sibling < broken.size →
      .ok ⟨sibling, .enter⟩ ∈ broken.walk root := by
  have sizes := severed.size_eq
  refine broken.forall_mem_follow ?_ ?_
  · intro first prev there
    exact severed.entered_prev built entered prev (sizes ▸ there)
  · intro other known next prev there
    exact severed.entered_prev built known prev (sizes ▸ there)

/-- The search down from a node takes no step that the walk does not take. -/
theorem entered_descendant {id found : Nat} (entered : .ok ⟨id, .enter⟩ ∈ broken.walk root)
    {kind : Kind} (search : broken.findDescendant? id kind = some found) :
    .ok ⟨found, .enter⟩ ∈ broken.walk root := by
  have sizes := severed.size_eq
  have there : found < broken.size := lt_size_of_hasKind (List.find?_some search)
  have all : ∀ below ∈ broken.follow (fun node => node.firstChild.or node.next)
      (broken.firstChild? id), below < broken.size →
        .ok ⟨below, .enter⟩ ∈ broken.walk root ∧ below ≠ root := by
    refine broken.forall_mem_follow ?_ ?_
    · intro child first inside
      exact ⟨severed.entered_firstChild built entered first (sizes ▸ inside),
        severed.ne_root_of_link built .firstChild (by decide) first (sizes ▸ inside)⟩
    · rintro other ⟨known, below⟩ next leads inside
      obtain ⟨node, present, down⟩ := Option.bind_eq_some_iff.mp leads
      cases first : node.firstChild with
      | some child =>
        have child? : broken.firstChild? other = some next := by
          rw [firstChild?, present, Option.bind_some, first]
          rwa [first] at down
        exact ⟨severed.entered_firstChild built known child? (sizes ▸ inside),
          severed.ne_root_of_link built .firstChild (by decide) child? (sizes ▸ inside)⟩
      | none =>
        have childless : broken.firstChild? other = none := by
          rw [firstChild?, present, Option.bind_some, first]
        have next? : broken.next? other = some next := by
          rw [Document.next?, present, Option.bind_some]
          rwa [first] at down
        exact ⟨severed.entered_next built known below childless next? (sizes ▸ inside),
          severed.ne_root_of_link built .next (by decide) next? (sizes ▸ inside)⟩
  exact (all found (List.mem_of_find?_eq_some search) there).1

end Severed

end Document

end Tangle
