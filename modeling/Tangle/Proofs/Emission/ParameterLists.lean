import Tangle.Proofs.Document.Balance
import Tangle.Proofs.Emission.Bodies

/-!
The parameter list of a function. Three places decide on their own what stands between a signature
and the body: the item of parameters, which opens its list in any case, the item of results, which
looks for a list item before it, and the first code block, which looks at how the last list begins.
Between them they write exactly one parameter list if and only if the groups stand where each of the
three expects them.
-/

namespace Tangle

namespace Document

/-- The visits of a document after one node is entered and before another one is. -/
def passage (doc : Document) (first last : NodeId) : List Visit :=
  (((doc.walk root).filterMap Except.toOption).dropWhile (· != ⟨first, .enter⟩)).tail.takeWhile
    (· != ⟨last, .enter⟩)

def isLabel (doc : Document) (id : NodeId) : Bool := Group.all.any (doc.isGroupItem · id)

def previous? (doc : Document) (kind : Kind) (id : NodeId) : Option NodeId :=
  (doc.siblingsBefore id .backward .heading).find? (doc.hasKind kind)

/-- Whether the nearest list before a node in its section begins with the label of a group. -/
def listsGroups (doc : Document) (id : NodeId) : Bool :=
  ((doc.previous? .list id).bind doc.firstChild?).any doc.isLabel

def groupDelimiters (doc : Document) : Visit → List Piece
  | ⟨id, .enter⟩ =>
    if doc.isGroupItem .parameters id then [.openGroup]
    else if doc.isGroupItem .returns id then
      if (doc.previous? .listItem id).isNone then [.noParameters, .openGroup] else [.openGroup]
    else []
  | ⟨id, .exit⟩ => if doc.isLabel id then [.closeGroup] else []

theorem Built.visits_walk {doc : Document} (built : Built doc) :
    (doc.walk root).filterMap Except.toOption = doc.tour root := by
  rw [built.grown.walk_eq_tour built.grown.placed_root, List.filterMap_map]
  exact List.filterMap_some

theorem Built.passage_sublist {doc : Document} (built : Built doc) (first last : NodeId) :
    (doc.passage first last).Sublist (doc.tour root) := by
  rw [passage, built.visits_walk]
  exact (List.takeWhile_sublist _).trans ((List.tail_sublist _).trans (List.dropWhile_sublist _))

namespace Heads

variable {doc : Document} (built : Built doc) {heading code : NodeId} {lead tail : List NodeId}
  (heads : doc.Heads heading (lead ++ code :: tail))

include built heads

theorem passage_eq : doc.passage heading code =
    (doc.offspring heading).flatMap doc.tour ++ ⟨heading, .exit⟩ :: lead.flatMap doc.tour := by
  obtain ⟨parent, elder, rest, split, -⟩ := heads.place
  rw [built.children_eq] at split
  have member : heading ∈ doc.offspring parent := by simp [split]
  obtain ⟨bound, -, later⟩ := mem_offspring.mp member
  have inside : parent < doc.size := Nat.lt_trans later bound
  obtain ⟨before, after, around, -⟩ :=
    built.tour_around built.root_lt (built.attached inside).within
  have whole : doc.tour root = (before ++ ⟨parent, .enter⟩ :: elder.flatMap doc.tour) ++
      ⟨heading, .enter⟩ :: (((doc.offspring heading).flatMap doc.tour ++
        ⟨heading, .exit⟩ :: lead.flatMap doc.tour) ++ ⟨code, .enter⟩ ::
          ((doc.offspring code).flatMap doc.tour ++ ⟨code, .exit⟩ ::
            ((tail ++ rest).flatMap doc.tour ++ ⟨parent, .exit⟩ :: after))) := by
    rw [around, tour_eq doc parent, split]
    simp [tour_eq doc heading, tour_eq doc code]
  have distinct := built.tour_nodup built.root_lt
  rw [whole, List.nodup_append] at distinct
  obtain ⟨-, further, first⟩ := distinct
  rw [List.nodup_cons, List.nodup_append] at further
  obtain ⟨-, -, -, second⟩ := further
  rw [passage, built.visits_walk, whole, List.dropWhile_append_of_pos, List.dropWhile_cons,
    bne_self_eq_false, if_neg Bool.false_ne_true, List.tail_cons, List.takeWhile_append_of_pos,
    List.takeWhile_cons, bne_self_eq_false, if_neg Bool.false_ne_true, List.append_nil]
  · intro visit present
    exact bne_iff_ne.mpr (second visit present _ List.mem_cons_self)
  · intro visit present
    exact bne_iff_ne.mpr (first visit present _ List.mem_cons_self)

theorem bounds : ∀ top ∈ heading :: lead, top < doc.size ∧ root < top := by
  obtain ⟨parent, siblings⟩ := heads.exists_parent built
  intro top among
  have member : top ∈ heading :: (lead ++ code :: tail) := by
    rcases List.mem_cons.mp among with rfl | later <;> simp [*]
  obtain ⟨inside, -, later⟩ := mem_offspring.mp (siblings top member)
  exact ⟨inside, Nat.lt_of_le_of_lt (Nat.zero_le parent) later⟩

theorem within_of_mem {visit : Visit} (member : visit ∈ doc.passage heading code) :
    ∃ top ∈ heading :: lead, doc.Within top visit.node := by
  rw [heads.passage_eq built, List.mem_append, List.mem_cons] at member
  rcases member with below | rfl | beside
  · have inner : visit ∈ doc.tour heading := by
      rw [tour_eq]
      simp [below]
    exact ⟨heading, List.mem_cons_self, .of_mem_tour inner⟩
  · exact ⟨heading, List.mem_cons_self, .start⟩
  · obtain ⟨top, among, present⟩ := List.mem_flatMap.mp beside
    exact ⟨top, List.mem_cons_of_mem heading among, .of_mem_tour present⟩

theorem mem_of_within {top id : Nat} (among : top ∈ heading :: lead) (within : doc.Within top id)
    (other : id ≠ heading) : ⟨id, .enter⟩ ∈ doc.passage heading code := by
  obtain ⟨inside, -⟩ := heads.bounds built top among
  have present : (⟨id, .enter⟩ : Visit) ∈ doc.tour top := (built.mem_tour_iff inside).mpr within
  rw [heads.passage_eq built]
  rcases List.mem_cons.mp among with rfl | later
  · rw [tour_eq] at present
    have inner : (⟨id, .enter⟩ : Visit) ∈ (doc.offspring top).flatMap doc.tour := by
      simpa [other] using present
    exact List.mem_append_left _ inner
  · have beside := List.mem_flatMap.mpr ⟨top, later, present⟩
    exact List.mem_append_right _ (List.mem_cons_of_mem _ beside)

theorem exists_between_of_mem {visit : Visit} (member : visit ∈ doc.passage heading code) :
    ∃ parent before after, Between doc parent visit.node before after := by
  obtain ⟨top, among, within⟩ := heads.within_of_mem built member
  obtain ⟨inside, below⟩ := heads.bounds built top among
  have other : visit.node ≠ root := Nat.ne_of_gt (Nat.lt_of_lt_of_le below (built.within_le within))
  exact built.exists_between (within.lt inside) other

end Heads

theorem Between.filter_visitPieces {doc : Document} (grown : Grown doc) {parent id : Nat}
    {before after : List Nat} (between : Between doc parent id before after)
    (alone : doc.functionScope? id = .ok none) : ∃ pieces,
      doc.visitPieces ⟨id, .enter⟩ = .ok pieces ∧
      pieces.filter Piece.isDelimiter = doc.groupDelimiters ⟨id, .enter⟩ := by
  refine ⟨_, between.enterPieces_eq grown, ?_⟩
  have other : (doc.outlineAt id).kind = .codeBlock →
      (Passed.over (before.map doc.outlineAt)).topic ≠ some .function := by
    intro code function
    obtain ⟨scope, found, body⟩ := between.functionScope?_eq grown code
    rw [alone, Except.ok.injEq] at found
    rw [← found, if_pos function] at body
    cases body
  obtain ⟨previous, search, passed, -⟩ := between.previousItem_eq grown
  rw [inSection?, findBounded?_unread, Except.ok.injEq] at search
  have item : (Passed.over (before.map doc.outlineAt)).item.isNone =
      (doc.previous? .listItem id).isNone := by
    rw [passed, Option.isNone_map, ← search]
    rfl
  rw [Outline.filter_enterPieces other, groupDelimiters, grown.isGroupItem_eq between.placed,
    grown.isGroupItem_eq between.placed]
  cases (doc.outlineAt id).group? with
  | none => rfl
  | some group =>
    cases group with
    | parameters => rfl
    | returns => simp [Outline.openingPieces, item]

theorem Built.subset_collect {doc : Document} (built : Built doc) {visits : List Visit}
    {written : List Piece} (collected : doc.collect visits = .ok written) {visit : Visit}
    (member : visit ∈ visits) {pieces : List Piece} (own : doc.visitPieces visit = .ok pieces) :
    pieces ⊆ written := by
  obtain ⟨before, after, rfl⟩ := List.append_of_mem member
  obtain ⟨earlier, first⟩ := built.exists_collect before
  obtain ⟨later, last⟩ := built.exists_collect after
  have whole := collect_append first (collect_append (collect_singleton own) last)
  rw [List.singleton_append, collected, Except.ok.injEq] at whole
  rw [whole]
  exact List.subset_append_of_subset_right _ (List.subset_append_left ..)

theorem hasKind_of_isLabel {doc : Document} {id : NodeId} (label : doc.isLabel id) :
    doc.hasKind .listItem id := by
  obtain ⟨group, -, opens⟩ := List.any_eq_true.mp label
  rw [isGroupItem, Bool.and_eq_true] at opens
  exact opens.1

theorem groupDelimiters_of_not_label {doc : Document} {visit : Visit}
    (other : ¬doc.isLabel visit.node) : doc.groupDelimiters visit = [] := by
  rcases visit with ⟨id, - | -⟩
  · have none : ∀ group ∈ Group.all, ¬doc.isGroupItem group id := by
      simpa [isLabel] using other
    rw [groupDelimiters, if_neg (none _ (Group.mem_all _)), if_neg (none _ (Group.mem_all _))]
  · rw [groupDelimiters, if_neg other]

theorem flatMap_groupDelimiters (doc : Document) (visits : List Visit) :
    visits.flatMap doc.groupDelimiters =
      (visits.filter (doc.isLabel ·.node)).flatMap doc.groupDelimiters := by
  induction visits with
  | nil => rfl
  | cons visit rest ih =>
    rw [List.flatMap_cons, ih, List.filter_cons]
    by_cases label : doc.isLabel visit.node
    · rw [if_pos label, List.flatMap_cons]
    · rw [if_neg label, groupDelimiters_of_not_label label, List.nil_append]

namespace Heads

variable {doc : Document} (built : Built doc) {heading code : NodeId} {lead tail : List NodeId}
  (heads : doc.Heads heading (lead ++ code :: tail))

include built heads

/-- With no other function on the way the delimiters written there are those of the groups. -/
theorem filter_passage
    (alone : ∀ id ∈ entered (doc.passage heading code), doc.functionScope? id = .ok none) :
    ∃ written, doc.collect (doc.passage heading code) = .ok written ∧
      written.filter Piece.isDelimiter =
        ((doc.passage heading code).filter (doc.isLabel ·.node)).flatMap doc.groupDelimiters := by
  rw [← flatMap_groupDelimiters]
  apply view_collect List.filter_nil List.filter_append
  rintro ⟨id, - | -⟩ member
  · obtain ⟨parent, before, after, between⟩ := heads.exists_between_of_mem built member
    exact between.filter_visitPieces built.grown (alone id (mem_entered.mpr member))
  · refine ⟨_, rfl, ?_⟩
    rw [groupDelimiters, exitPieces, isLabel]
    split_ifs <;> rfl

theorem balanced_labels : Balanced ((doc.passage heading code).filter (doc.isLabel ·.node)) := by
  have other : ¬doc.isLabel heading := by
    intro label
    have kinds := (kind_of_hasKind heads.isHeading).2.symm.trans
      (kind_of_hasKind (hasKind_of_isLabel label)).2
    cases kinds
  rw [heads.passage_eq built, List.filter_append, List.filter_cons, if_neg other]
  exact ((balanced_tours fun id _ => doc.balanced_tour id).filter _).append
    ((balanced_tours fun id _ => doc.balanced_tour id).filter _)

theorem sibling_mem (first : ∀ id ∈ lead, doc.hasKind .codeBlock id = false)
    {parent id sibling : Nat} (member : ⟨id, .enter⟩ ∈ doc.passage heading code)
    (own : doc.hasKind .codeBlock id) (offspring : id ∈ doc.offspring parent)
    (other : sibling ∈ doc.offspring parent) (chunk : doc.hasKind .codeBlock sibling) :
    ⟨sibling, .enter⟩ ∈ doc.passage heading code := by
  have apart : ∀ id, doc.hasKind .codeBlock id → id ∉ heading :: lead := by
    intro id own among
    rcases List.mem_cons.mp among with rfl | later
    · have kinds := (kind_of_hasKind heads.isHeading).2.symm.trans (kind_of_hasKind own).2
      cases kinds
    · rw [first id later] at own
      cases own
  obtain ⟨top, among, within⟩ := heads.within_of_mem built member
  apply heads.mem_of_within built among _ fun same => apart sibling chunk (by simp [same])
  cases within with
  | start => exact absurd among (apart _ own)
  | child above named =>
    rw [(mem_offspring.mp offspring).2.1, Option.some.injEq] at named
    exact above.child (named ▸ (mem_offspring.mp other).2.1)

theorem openBody_mem (first : ∀ id ∈ lead, doc.hasKind .codeBlock id = false) {id : NodeId}
    (member : ⟨id, .enter⟩ ∈ doc.passage heading code) (inner : doc.functionScope? id ≠ .ok none)
    {written : List Piece} (collected : doc.collect (doc.passage heading code) = .ok written) :
    .openBody ∈ written := by
  obtain ⟨parent, before, after, between⟩ := heads.exists_between_of_mem built member
  have own : doc.hasKind .codeBlock id := by
    by_contra other
    rw [functionScope?, owner?, if_neg other] at inner
    exact inner rfl
  have kind := (kind_of_hasKind own).2
  have function : (Passed.over (before.map doc.outlineAt)).topic = some .function := by
    by_contra other
    obtain ⟨scope, found, body⟩ := between.functionScope?_eq built.grown kind
    rw [if_neg other, Option.map_eq_none_iff] at body
    exact inner (body ▸ found)
  obtain ⟨owner, members, nested, among, topic⟩ :=
    built.exists_heads_of_topic between (by rw [kind]; decide) function
  have chunk : id ∈ doc.chunks members := List.mem_filter.mpr ⟨among, own⟩
  obtain ⟨opener, others, chunks⟩ := List.exists_cons_of_ne_nil (List.ne_nil_of_mem chunk)
  have parted : doc.chunks members = [] ++ opener :: others := chunks
  obtain ⟨earlier, later, rfl, opens, none, -⟩ := exists_of_chunks parted
  obtain ⟨_, _, _, -, named, fresh, entering⟩ := built.codePieces_of_heads nested opens
  obtain ⟨above, siblings⟩ := nested.exists_parent built
  have opened := heads.sibling_mem built first member own
    (siblings id (List.mem_cons_of_mem owner among)) (siblings opener (by simp)) opens
  apply built.subset_collect collected opened entering
  rw [Outline.codePieces, named, topic, fresh, any_codeBlock, none]
  split_ifs <;> simp_all

end Heads

section Groups

variable {doc : Document} {id : NodeId}

theorem isLabel_of_isGroupItem {group : Group} (opens : doc.isGroupItem group id) :
    doc.isLabel id :=
  List.any_eq_true.mpr ⟨group, group.mem_all, opens⟩

theorem groupDelimiters_parameters (opens : doc.isGroupItem .parameters id) :
    doc.groupDelimiters ⟨id, .enter⟩ = [.openGroup] ∧
      doc.groupDelimiters ⟨id, .exit⟩ = [.closeGroup] := by
  rw [groupDelimiters, groupDelimiters, if_pos opens, if_pos (isLabel_of_isGroupItem opens)]
  exact ⟨rfl, rfl⟩

theorem groupDelimiters_returns (opens : doc.isGroupItem .returns id) :
    doc.groupDelimiters ⟨id, .enter⟩ =
        (if (doc.previous? .listItem id).isNone then [.noParameters] else []) ++ [.openGroup] ∧
      doc.groupDelimiters ⟨id, .exit⟩ = [.closeGroup] := by
  have other : ¬doc.isGroupItem .parameters id := by
    intro both
    rw [isGroupItem, Bool.and_eq_true, beq_iff_eq] at both opens
    rw [opens.2] at both
    exact absurd both.2 (by decide)
  rw [groupDelimiters, groupDelimiters, if_neg other, if_pos opens,
    if_pos (isLabel_of_isGroupItem opens)]
  refine ⟨?_, rfl⟩
  split_ifs <;> rfl

end Groups

theorem Between.listsGroups_eq {doc : Document} (grown : Grown doc) {parent id : Nat}
    {before after : List Nat} (between : Between doc parent id before after) :
    doc.listsGroups id = (Passed.over (before.map doc.outlineAt)).groups := by
  obtain ⟨parameters, returns, first, second, groups⟩ := between.hasGroupList_eq grown
  have found : ∀ group, doc.hasGroupList group id =
      .ok (((doc.previous? .list id).bind doc.firstChild?).any (doc.isGroupItem group)) := by
    intro group
    rw [hasGroupList, inSection?, findBounded?_unread]
    rfl
  rw [found, Except.ok.injEq] at first second
  rw [← groups, ← first, ← second, listsGroups]
  cases (doc.previous? .list id).bind doc.firstChild? <;> simp [isLabel, Group.all]

theorem Heads.opening_eq {doc : Document} (built : Built doc) {heading code : NodeId}
    {lead tail : List NodeId} (heads : doc.Heads heading (lead ++ code :: tail))
    {signature : String} (named : doc.functionHeading? heading = .ok (some signature))
    (own : doc.hasKind .codeBlock code)
    (first : ∀ id ∈ lead, doc.hasKind .codeBlock id = false) :
    ∃ rest, doc.visitPieces ⟨code, .enter⟩ =
      .ok ((if doc.listsGroups code then [] else [.noGroups]) ++ .openBody :: rest) := by
  obtain ⟨_, _, _, between, topic, chunk, entering⟩ := built.codePieces_of_heads heads own
  have none : lead.any (doc.hasKind .codeBlock) = false := by simpa using first
  rw [(built.functionHeading?_iff heads.isHeading).mp ⟨signature, named⟩] at topic
  rw [Outline.codePieces, topic, chunk, none, ← between.listsGroups_eq built.grown] at entering
  cases lists : doc.listsGroups code <;>
  · rw [lists] at entering
    exact ⟨_, entering⟩

def listDelimiters (parameters returns : Bool) : List Piece :=
  (if parameters then [.openGroup, .closeGroup]
    else if returns then [.noParameters] else [.noGroups]) ++
  if returns then [.openGroup, .closeGroup] else []

/-- Where the groups of a function stand if they make up one parameter list and its results. -/
@[mk_iff]
structure Aligned (doc : Document) (heading code : NodeId) (parameters returns : Option NodeId) :
    Prop where
  /-- No code of another function comes before the body. -/
  alone : ∀ id ∈ entered (doc.passage heading code), doc.functionScope? id = .ok none
  /-- The results do not stand below the parameters. -/
  apart : ∀ first ∈ parameters, ∀ second ∈ returns, first ∉ doc.ancestors second
  /-- The results have a list item before them just if there are parameters. -/
  preceded : ∀ item ∈ returns, (doc.previous? .listItem item).isSome = parameters.isSome
  /-- The last list before the body begins with a group just if there is one. -/
  listed : doc.listsGroups code = (parameters.isSome || returns.isSome)

/-- The labels write what is expected if they stand where they are expected. -/
theorem Built.delimiters_eq_iff {doc : Document} (built : Built doc) {visits : List Visit}
    (balanced : Balanced visits) (part : visits.Sublist (doc.tour root))
    {parameters returns : Option NodeId}
    (labels : entered visits = parameters.toList ++ returns.toList)
    (isParameters : ∀ item ∈ parameters, doc.isGroupItem .parameters item)
    (isReturns : ∀ item ∈ returns, doc.isGroupItem .returns item) (lists : Bool) :
    visits.flatMap doc.groupDelimiters ++ (if lists then [] else [.noGroups]) =
        listDelimiters parameters.isSome returns.isSome ↔
      (∀ first ∈ parameters, ∀ second ∈ returns, first ∉ doc.ancestors second) ∧
      (∀ item ∈ returns, (doc.previous? .listItem item).isSome = parameters.isSome) ∧
      lists = (parameters.isSome || returns.isSome) := by
  cases parameters with
  | none =>
    cases returns with
    | none =>
      rw [balanced.eq_nil labels]
      cases lists <;> simp [listDelimiters]
    | some item =>
      obtain ⟨enter, leave⟩ := groupDelimiters_returns (isReturns item rfl)
      rw [balanced.eq_pair labels]
      cases before : doc.previous? .listItem item <;> cases lists <;>
        simp [listDelimiters, enter, leave, before]
  | some label =>
    obtain ⟨enter, leave⟩ := groupDelimiters_parameters (isParameters label rfl)
    cases returns with
    | none =>
      rw [balanced.eq_pair labels]
      cases lists <;> simp [listDelimiters, enter, leave]
    | some item =>
      obtain ⟨enter', leave'⟩ := groupDelimiters_returns (isReturns item rfl)
      rw [built.eq_pairs balanced part labels]
      by_cases below : label ∈ doc.ancestors item <;>
        cases before : doc.previous? .listItem item <;> cases lists <;>
          simp [listDelimiters, enter, leave, enter', leave', before, below]

/--
Between the signature of a function and its body there is exactly one parameter list, with the
results after it, if and only if the groups stand where the three places that write it expect them.
-/
theorem one_parameter_list_iff {doc : Document} (built : Built doc) {heading code : NodeId}
    {lead tail : List NodeId} (heads : doc.Heads heading (lead ++ code :: tail))
    {signature : String} (named : doc.functionHeading? heading = .ok (some signature))
    (own : doc.hasKind .codeBlock code)
    (first : ∀ id ∈ lead, doc.hasKind .codeBlock id = false) {parameters returns : Option NodeId}
    (groups : (entered (doc.passage heading code)).filter doc.isLabel =
      parameters.toList ++ returns.toList)
    (isParameters : ∀ item ∈ parameters, doc.isGroupItem .parameters item)
    (isReturns : ∀ item ∈ returns, doc.isGroupItem .returns item) :
    doc.visitPieces ⟨heading, .enter⟩ = .ok [.signature signature] ∧
    ∃ written unlisted rest,
      doc.collect (doc.passage heading code) = .ok written ∧
      unlisted = (if doc.listsGroups code then [] else [.noGroups]) ∧
      doc.visitPieces ⟨code, .enter⟩ = .ok (unlisted ++ .openBody :: rest) ∧
      ((written ++ unlisted).filter Piece.isDelimiter =
          listDelimiters parameters.isSome returns.isSome ↔
        doc.Aligned heading code parameters returns) := by
  obtain ⟨inside, kind⟩ := kind_of_hasKind heads.isHeading
  obtain ⟨rest, opening⟩ := heads.opening_eq built named own first
  obtain ⟨written, collected⟩ := built.exists_collect (doc.passage heading code)
  refine ⟨?_, written, _, rest, collected, rfl, opening, ?_⟩
  · rw [visitPieces, enterPieces, kind?_eq inside, kind]
    change doc.headingPieces heading = _
    rw [headingPieces, named]
    rfl
  · by_cases alone : ∀ id ∈ entered (doc.passage heading code), doc.functionScope? id = .ok none
    · obtain ⟨_, same, kept⟩ := heads.filter_passage built alone
      rw [collected, Except.ok.injEq] at same
      subst same
      have labels := (entered_filter doc.isLabel _).trans groups
      have unlisted : (if doc.listsGroups code then [] else [.noGroups]).filter Piece.isDelimiter =
          if doc.listsGroups code then [] else [.noGroups] := by
        split_ifs <;> rfl
      rw [List.filter_append, kept, unlisted, aligned_iff, built.delimiters_eq_iff
        (heads.balanced_labels built) (List.filter_sublist.trans (built.passage_sublist _ _)) labels
        isParameters isReturns]
      exact (and_iff_right alone).symm
    · refine iff_of_false ?_ fun aligned => alone aligned.alone
      push Not at alone
      obtain ⟨id, member, inner⟩ := alone
      have opens := heads.openBody_mem built first (mem_entered.mp member) inner collected
      intro same
      have present : .openBody ∈ listDelimiters parameters.isSome returns.isSome := by
        rw [← same]
        exact List.mem_filter.mpr ⟨List.mem_append_left _ opens, rfl⟩
      cases parameters <;> cases returns <;> simp [listDelimiters] at present

def remarkedGroups : Document :=
  ofOutlines [.heading 2 [.leaf .text "func ".toList, .leaf .codeSpan "F".toList],
    .branch .list [.branch .listItem [.branch .paragraph [.leaf .text "fast".toList]]],
    .branch .list [
      .branch .listItem [.branch .paragraph [.leaf .text "parameters".toList],
        .branch .list [.branch .listItem [.branch .paragraph [.leaf .codeSpan "a int".toList]]]],
      .branch .listItem [.branch .paragraph [.leaf .text "gives".toList]],
      .branch .listItem [.branch .paragraph [.leaf .text "returns".toList],
        .branch .list [.branch .listItem [.branch .paragraph [.leaf .codeSpan "int".toList]]]]],
    .leaf .codeBlock "f\n".toList]

theorem one_parameter_list_iff_remarkedGroups : Built remarkedGroups ∧
    remarkedGroups.Heads 1 [4, 8, 26] ∧
    remarkedGroups.functionHeading? 1 = .ok (some "func F") ∧
    (entered (remarkedGroups.passage 1 26)).filter remarkedGroups.isLabel =
      [9, 19] ∧
    remarkedGroups.Aligned 1 26 (some 9) (some 19) ∧
    ∃ written unlisted rest,
      remarkedGroups.collect (remarkedGroups.passage 1 26) = .ok written ∧
      remarkedGroups.visitPieces ⟨26, .enter⟩ = .ok (unlisted ++ .openBody :: rest) ∧
      (written ++ unlisted).filter Piece.isDelimiter =
        [.openGroup, .closeGroup, .openGroup, .closeGroup] := by
  have built : Built remarkedGroups := built_ofOutlines _
  have heads : remarkedGroups.Heads 1 ([4, 8] ++ 26 :: []) :=
    ⟨by decide, by decide, 0, [], [], by decide, by decide⟩
  have named : remarkedGroups.functionHeading? 1 = .ok (some "func F") := by decide
  have groups : (entered (remarkedGroups.passage 1 26)).filter
      remarkedGroups.isLabel = (some 9).toList ++ (some 19).toList := by decide
  have aligned : remarkedGroups.Aligned 1 26 (some 9) (some 19) :=
    ⟨by decide, by decide, by decide, by decide⟩
  obtain ⟨-, written, unlisted, rest, collected, -, entering, delimited⟩ :=
    one_parameter_list_iff built heads named (by decide) (by decide) groups (by decide) (by decide)
  exact ⟨built, heads, named, groups, aligned, written, unlisted, rest, collected, entering,
    delimited.mpr aligned⟩

def remarkFirst : Document :=
  ofOutlines [.heading 2 [.leaf .text "func ".toList, .leaf .codeSpan "F".toList],
    .branch .list [
      .branch .listItem [.branch .paragraph [.leaf .text "intro".toList]],
      .branch .listItem [.branch .paragraph [.leaf .text "parameters".toList],
        .branch .list [.branch .listItem [.branch .paragraph [.leaf .codeSpan "a int".toList]]]]],
    .leaf .codeBlock "f\n".toList]

def listsApart : Document :=
  ofOutlines [.heading 2 [.leaf .text "func ".toList, .leaf .codeSpan "G".toList],
    .branch .list [.branch .listItem [.branch .paragraph [.leaf .text "parameters".toList],
      .branch .list [.branch .listItem [.branch .paragraph [.leaf .codeSpan "a int".toList]]]]],
    .branch .list [.branch .listItem [.branch .paragraph [.leaf .text "returns".toList],
      .branch .list [.branch .listItem [.branch .paragraph [.leaf .codeSpan "int".toList]]]]],
    .leaf .codeBlock "g\n".toList]

/-- Either function gets a second parameter list, which is empty. -/
theorem two_parameter_lists :
    (entered (remarkFirst.passage 1 15)).filter remarkFirst.isLabel = [8] ∧
    remarkFirst.isGroupItem .parameters 8 ∧
    remarkFirst.emit = .ok ⟨"func F( a int) ()" ++ bodyStart ++ "f\n" ++ bodyEnd, ["func F"]⟩ ∧
    (entered (listsApart.passage 1 20)).filter listsApart.isLabel = [5, 13] ∧
    listsApart.isGroupItem .parameters 5 ∧ listsApart.isGroupItem .returns 13 ∧
    listsApart.emit = .ok ⟨"func G( a int) () ( int ) " ++ bodyStart ++ "g\n" ++ bodyEnd, ["func G"]⟩ := by
  decide

end Document

end Tangle
