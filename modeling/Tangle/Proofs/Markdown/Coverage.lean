import Mathlib.Tactic.MkIffOfInductiveProp
import Tangle.Markdown.Inline
import Tangle.Proofs.Markdown.Schema
import Tangle.Proofs.Text.Span

/-!
What becomes of the text of a span of inline markup. Where the nodes of the parse lie in order
inside one another, the text is read from left to right: each stretch of it is the literal of one
leaf, or it is markup of a kind that is dropped. So no text is lost, told twice or moved.
-/

namespace Tangle

namespace Span

def Has (span : Span) (offset : Nat) : Prop := span.start ≤ offset ∧ offset < span.stop

def Includes (outer inner : Span) : Prop := outer.start ≤ inner.start ∧ inner.stop ≤ outer.stop

instance (outer inner : Span) : Decidable (outer.Includes inner) :=
  inferInstanceAs (Decidable (_ ∧ _))

def Clears (inner outer : Span) : Prop :=
  outer.Includes inner ∨ inner.stop ≤ outer.start ∨ outer.stop ≤ inner.start

instance (inner outer : Span) : Decidable (inner.Clears outer) :=
  inferInstanceAs (Decidable (_ ∨ _))

end Span

namespace Outline

mutual

def literals : Outline → List (List Char)
  | node label children =>
    (if label.kind = .text ∨ label.kind = .codeSpan then
      (label.literal.map String.toList).toList else []) ++ literalsOf children

def literalsOf : List Outline → List (List Char)
  | [] => []
  | outline :: rest => outline.literals ++ literalsOf rest

end

@[simp] theorem literalsOf_nil : literalsOf [] = [] := by
  rw [literalsOf]

@[simp] theorem literalsOf_append (outlines more : List Outline) :
    literalsOf (outlines ++ more) = literalsOf outlines ++ literalsOf more := by
  induction outlines with
  | nil => rw [literalsOf, List.nil_append, List.nil_append]
  | cons outline rest ih => rw [List.cons_append, literalsOf, literalsOf, ih, List.append_assoc]

@[simp] theorem literalsOf_leaf {kind : Kind} (own : kind = .text ∨ kind = .codeSpan)
    (literal : List Char) : literalsOf [leaf kind literal] = [literal] := by
  simp [literalsOf, leaf, literals, own]

@[simp] theorem literalsOf_other {kind : Kind} (text : kind ≠ .text) (code : kind ≠ .codeSpan)
    (literal : List Char) : literalsOf [leaf kind literal] = [] := by
  simp [literalsOf, leaf, literals, text, code]

@[simp] theorem literalsOf_branch {kind : Kind} (text : kind ≠ .text) (code : kind ≠ .codeSpan)
    (children : List Outline) : literalsOf [branch kind children] = literalsOf children := by
  simp [literalsOf, branch, literals, text, code]

end Outline

namespace Text

def Around (source : List Char) (span : Span) (before core after : List Char) (offset : Nat) :
    Prop :=
  slice? source span = some (before ++ core ++ after) ∧
    (span.start ≤ offset ∧ offset < span.start + width before ∨
      span.start + width before + width core ≤ offset ∧ offset < span.stop)

/-- The source from one offset to another is these texts in order and else dropped. -/
inductive Accounts (source : List Char) (dropped : Nat → Prop) :
    Nat → Nat → List (List Char) → Prop where
  | done (offset : Nat) : Accounts source dropped offset offset []
  | keep {start middle stop : Nat} {text : List Char} {later : List (List Char)}
      (cut : slice? source ⟨start, middle⟩ = some text)
      (rest : Accounts source dropped middle stop later) :
      Accounts source dropped start stop (text :: later)
  | drop {start middle stop : Nat} {later : List (List Char)} (forward : start ≤ middle)
      (all : ∀ offset, start ≤ offset → offset < middle → dropped offset)
      (rest : Accounts source dropped middle stop later) :
      Accounts source dropped start stop later

namespace Accounts

variable {source : List Char} {dropped : Nat → Prop} {start middle stop : Nat}
  {texts more : List (List Char)}

theorem append (first : Accounts source dropped start middle texts)
    (second : Accounts source dropped middle stop more) :
    Accounts source dropped start stop (texts ++ more) := by
  induction first with
  | done => exact second
  | keep cut _ ih => exact .keep cut (ih second)
  | drop forward all _ ih => exact .drop forward all (ih second)

theorem mono {wider : Nat → Prop} (accounts : Accounts source dropped start stop texts)
    (implied : ∀ offset, dropped offset → wider offset) :
    Accounts source wider start stop texts := by
  induction accounts with
  | done => exact .done _
  | keep cut _ ih => exact .keep cut ih
  | drop forward all _ ih =>
    exact .drop forward (fun offset low high => implied offset (all offset low high)) ih

theorem of_drop (forward : start ≤ stop)
    (all : ∀ offset, start ≤ offset → offset < stop → dropped offset) :
    Accounts source dropped start stop [] :=
  .drop forward all (.done stop)

theorem of_keep {text : List Char} (cut : slice? source ⟨start, stop⟩ = some text) :
    Accounts source dropped start stop [text] :=
  .keep cut (.done stop)

theorem of_around {span : Span} {before core after : List Char}
    (cut : slice? source span = some (before ++ core ++ after))
    (all : ∀ offset, Around source span before core after offset → dropped offset) :
    Accounts source dropped span.start span.stop [core] := by
  obtain ⟨front, last⟩ := slice?_split cut
  obtain ⟨first, middle⟩ := slice?_split front
  have ending := stop_of_slice? last
  simp only [width_append] at first middle last ending
  rw [← Nat.add_assoc] at middle last ending
  refine .drop (by omega) ?_ (.keep middle (of_drop (by omega) ?_))
  · exact fun offset low high => all offset ⟨cut, .inl ⟨low, high⟩⟩
  · exact fun offset low high => all offset ⟨cut, .inr ⟨low, high⟩⟩

/-- The texts are those of spans one after the other, and what is not in them is dropped. -/
theorem exists_ranges (accounts : Accounts source dropped start stop texts) :
    start ≤ stop ∧ ∃ ranges : List Span, texts.map some = ranges.map (slice? source) ∧
      ranges.Pairwise (fun range next => range.stop ≤ next.start) ∧
      (∀ range ∈ ranges, start ≤ range.start ∧ range.stop ≤ stop) ∧
      ∀ offset, start ≤ offset → offset < stop →
        (∃ range ∈ ranges, range.Has offset) ∨ dropped offset := by
  induction accounts with
  | done offset => exact ⟨Nat.le_refl _, [], rfl, .nil, by simp, fun _ low high => by omega⟩
  | @keep start middle stop text later cut rest ih =>
    obtain ⟨forward, ranges, same, ordered, bounded, covered⟩ := ih
    have reached := stop_of_slice? cut
    simp only at reached
    refine ⟨by omega, ⟨start, middle⟩ :: ranges, ?_, ?_, ?_, ?_⟩
    · rw [List.map_cons, List.map_cons, same, cut]
    · exact .cons (fun range member => (bounded range member).1) ordered
    · rw [List.forall_mem_cons]
      exact ⟨⟨Nat.le_refl _, forward⟩, fun range member =>
        ⟨by have := (bounded range member).1; omega, (bounded range member).2⟩⟩
    · intro offset low high
      by_cases within : offset < middle
      · exact .inl ⟨_, List.mem_cons_self, low, within⟩
      · rcases covered offset (by omega) high with ⟨range, member, has⟩ | gone
        · exact .inl ⟨range, List.mem_cons_of_mem _ member, has⟩
        · exact .inr gone
  | @drop start middle stop later onward all rest ih =>
    obtain ⟨forward, ranges, same, ordered, bounded, covered⟩ := ih
    refine ⟨by omega, ranges, same, ordered, ?_, ?_⟩
    · intro range member
      have bounds := bounded range member
      exact ⟨by omega, bounds.2⟩
    · intro offset low high
      by_cases within : offset < middle
      · exact .inr (all offset low within)
      · exact covered offset (by omega) high

end Accounts

end Text

namespace Markdown

open Text Outline

namespace ParseTree

def inlineRole (node : ParseTree) : InlineRole := InlineRole.ofKind node.kind

def label? (node : ParseTree) : Option ParseTree :=
  (node.child? "link_text").or (node.child? "image_description")

@[mk_iff]
structure Arranged (source : List Char) (nodes : List ParseTree) : Prop where
  ordered : nodes.Pairwise fun node next => node.span.stop ≤ next.span.start
  cut : ∀ node ∈ nodes, (slice? source node.span).isSome

instance (source : List Char) (nodes : List ParseTree) : Decidable (Arranged source nodes) :=
  decidable_of_iff' _ (arranged_iff source nodes)

@[mk_iff]
structure EndsWithTicks (source : List Char) (span run : Span) : Prop where
  some : run.start < run.stop
  placed : run.start = span.start ∨ run.stop = span.stop
  ticks : ∀ c ∈ slice source run, c = '`'

instance (source : List Char) (span run : Span) : Decidable (EndsWithTicks source span run) :=
  have : Decidable (∀ c ∈ slice source run, c = '`') := List.decidableBAll _ _
  decidable_of_iff' _ (endsWithTicks_iff source span run)

/-- What a parser of inline markup promises of a node and the nodes right below it. -/
@[mk_iff]
structure WellPlaced (source : List Char) (node : ParseTree) : Prop where
  arranged : Arranged source node.children
  inside : ∀ child ∈ node.children, node.span.Includes child.span
  label : node.inlineRole = .link → ∀ label ∈ node.label?, ∀ child ∈ label.children,
    child.span.Clears (trimmed source label.span)
  delimiters : node.inlineRole = .code → ∀ child ∈ node.children,
    child.kind = "code_span_delimiter" → EndsWithTicks source node.span child.span
  backslash : node.inlineRole = .escape → (slice source node.span).head? = some '\\'

instance (source : List Char) (node : ParseTree) : Decidable (WellPlaced source node) :=
  decidable_of_iff' _ (wellPlaced_iff source node)

/-- Nodes at each level of which the promise is kept, and of which none crosses an end of a span. -/
@[mk_iff]
structure WellNested (source : List Char) (span : Span) (nodes : List ParseTree) : Prop where
  arranged : Arranged source nodes
  clear : ∀ node ∈ nodes, node.span.Clears span
  placed : ∀ node ∈ partsOf nodes, node.WellPlaced source

instance (source : List Char) (span : Span) (nodes : List ParseTree) :
    Decidable (WellNested source span nodes) :=
  decidable_of_iff' _ (wellNested_iff source span nodes)

/-- An offset that belongs to markup of a node, or of one below it, that stands for no text. -/
inductive Drops (source : List Char) : ParseTree → Nat → Prop where
  | delimiter {node : ParseTree} {offset : Nat} (role : node.inlineRole = .delimiter)
      (inside : node.span.Has offset) : Drops source node offset
  | lineBreak {node : ParseTree} {offset : Nat} (role : node.inlineRole = .lineBreak)
      (inside : node.span.Has offset) : Drops source node offset
  | backslash {node : ParseTree} {offset : Nat} (role : node.inlineRole = .escape)
      (first : offset = node.span.start) : Drops source node offset
  | brackets {node : ParseTree} {offset : Nat} {opening core closing : List Char}
      (role : node.inlineRole = .autolink)
      (around : Around source node.span opening core closing offset)
      (opens : ∀ c ∈ opening, c = '<') (closes : ∀ c ∈ closing, c = '>') : Drops source node offset
  | ticks {node : ParseTree} {offset : Nat} {opening padding core closing : List Char}
      (role : node.inlineRole = .code)
      (around : Around source node.span (opening ++ padding) core (padding ++ closing) offset)
      (opens : ∀ c ∈ opening, c = '`') (closes : ∀ c ∈ closing, c = '`')
      (padded : padding = [] ∨ padding = [' '] ∧ ¬isAllBlank core) : Drops source node offset
  | target {node : ParseTree} {offset : Nat} (role : node.inlineRole = .link)
      (inside : node.span.Has offset) (apart : ∀ label ∈ node.label?, ¬label.span.Has offset) :
      Drops source node offset
  | labelEnds {node label : ParseTree} {offset : Nat} {lead core trail : List Char}
      (role : node.inlineRole = .link) (found : node.label? = some label)
      (around : Around source label.span lead core trail offset) (leads : isAllBlank lead)
      (trails : isAllBlank trail) : Drops source node offset
  | inLabel {node label child : ParseTree} {offset : Nat} (role : node.inlineRole = .link)
      (found : node.label? = some label) (member : child ∈ label.children)
      (below : Drops source child offset) : Drops source node offset
  | inEmphasis {node child : ParseTree} {offset : Nat}
      (role : node.inlineRole = .emphasis ∨ node.inlineRole = .strong)
      (member : child ∈ node.children) (below : Drops source child offset) :
      Drops source node offset

end ParseTree

open ParseTree

variable {source : List Char}

theorem accounts_gap {dropped : Nat → Prop} {start stop : Nat} (first : IsCut source start)
    (last : IsCut source stop) (forward : start ≤ stop) :
    Accounts source dropped start stop (literalsOf (gap source start stop)) := by
  obtain ⟨text, cut⟩ := exists_slice? first last forward
  have reached := stop_of_slice? cut
  simp only at reached
  by_cases empty : start = stop
  · subst empty
    simp only [gap, Nat.lt_irrefl, if_false, literalsOf_nil]
    exact .done start
  · have present : text ≠ [] := by
      rintro rfl
      simp only [width] at reached
      omega
    have single : gap source start stop = [.leaf .text text] := by
      rw [gap, if_pos (by omega), slice_of_slice? cut]
      cases text with
      | nil => exact absurd rfl present
      | cons c text => rfl
    rw [single, literalsOf_leaf (.inl rfl)]
    exact .of_keep cut

theorem dropWhile_spec (p : Char → Bool) (text : List Char) :
    ∃ run, text = run ++ text.dropWhile p ∧ ∀ c ∈ run, p c :=
  ⟨text.takeWhile p, List.takeWhile_append_dropWhile.symm, fun _ => List.mem_takeWhile_imp⟩

theorem dropEndWhile_spec (p : Char → Bool) (text : List Char) :
    ∃ run, text = dropEndWhile p text ++ run ∧ ∀ c ∈ run, p c :=
  ⟨endRun p text, (dropEndWhile_append_takeEnd p text).symm, forall_mem_endRun p text⟩

theorem autolinkText_spec {span : Span} {text : List Char} (cut : slice? source span = some text) :
    ∃ opening closing, text = opening ++ autolinkText source span ++ closing ∧
      (∀ c ∈ opening, c = '<') ∧ ∀ c ∈ closing, c = '>' := by
  obtain ⟨opening, first, opens⟩ := dropWhile_spec (· == '<') text
  obtain ⟨closing, last, closes⟩ := dropEndWhile_spec (· == '>') (text.dropWhile (· == '<'))
  refine ⟨opening, closing, ?_, fun c member => eq_of_beq (opens c member),
    fun c member => eq_of_beq (closes c member)⟩
  rw [autolinkText, slice_of_slice? cut, List.append_assoc, ← last, ← first]

theorem withoutPadding_spec (inner : List Char) :
    ∃ padding, inner = padding ++ withoutPadding inner ++ padding ∧
      (padding = [] ∨ padding = [' '] ∧ ¬isAllBlank (withoutPadding inner)) := by
  unfold withoutPadding
  split
  · next rest =>
    simp only
    split_ifs with padded
    · obtain ⟨core, same⟩ := List.getLast?_eq_some_iff.mp padded.1
      refine ⟨[' '], ?_, .inr ⟨rfl, padded.2⟩⟩
      rw [same, List.dropLast_concat]
      rfl
    · exact ⟨[], by simp, .inl rfl⟩
  · exact ⟨[], by simp, .inl rfl⟩

theorem bareCode_spec (text : List Char) :
    ∃ opening closing,
      text = opening ++ dropEndWhile (· == '`') (text.dropWhile (· == '`')) ++ closing ∧
      (∀ c ∈ opening, c = '`') ∧ ∀ c ∈ closing, c = '`' := by
  obtain ⟨opening, first, opens⟩ := dropWhile_spec (· == '`') text
  obtain ⟨closing, last, closes⟩ := dropEndWhile_spec (· == '`') (text.dropWhile (· == '`'))
  refine ⟨opening, closing, ?_, fun c member => eq_of_beq (opens c member),
    fun c member => eq_of_beq (closes c member)⟩
  rw [List.append_assoc, ← last, ← first]

theorem delimiters_at_ends {span first last : Span} (opens : EndsWithTicks source span first)
    (closes : EndsWithTicks source span last) (opened : span.Includes first)
    (closed : span.Includes last) (apart : first.stop ≤ last.start) :
    first.start = span.start ∧ last.stop = span.stop := by
  have opening := opens.some
  have closing := closes.some
  have starts := opens.placed
  have stops := closes.placed
  have low := opened.1
  have high := closed.2
  omega

theorem codeSpanInner_spec {node : ParseTree} (placed : node.WellPlaced source)
    (role : node.inlineRole = .code) {text : List Char}
    (cut : slice? source node.span = some text) :
    ∃ opening closing, text = opening ++ codeSpanInner source node.span node.children ++ closing ∧
      (∀ c ∈ opening, c = '`') ∧ ∀ c ∈ closing, c = '`' := by
  unfold codeSpanInner
  simp only
  rw [slice_of_slice? cut]
  split
  · next first last isFirst isLast =>
    split_ifs with apart
    · have found : ∀ child ∈ node.children.filter (·.kind == "code_span_delimiter"),
          EndsWithTicks source node.span child.span ∧ node.span.Includes child.span ∧
            (slice? source child.span).isSome := by
        intro child member
        obtain ⟨present, kind⟩ := List.mem_filter.mp member
        exact ⟨placed.delimiters role child present (eq_of_beq kind), placed.inside child present,
          placed.arranged.cut child present⟩
      obtain ⟨opens, opened, firstCut⟩ := found first (List.mem_of_head? isFirst)
      obtain ⟨closes, closed, lastCut⟩ := found last (List.mem_of_getLast? isLast)
      obtain ⟨starts, stops⟩ := delimiters_at_ends opens closes opened closed apart
      obtain ⟨opening, cutOpening⟩ := Option.isSome_iff_exists.mp firstCut
      obtain ⟨closing, cutClosing⟩ := Option.isSome_iff_exists.mp lastCut
      obtain ⟨inner, cutInner⟩ :=
        exists_slice? (isCut_stop cutOpening) (isCut_start cutClosing) apart
      have openTicks := opens.ticks
      have closeTicks := closes.ticks
      rw [slice_of_slice? cutOpening] at openTicks
      rw [slice_of_slice? cutClosing] at closeTicks
      refine ⟨opening, closing, ?_, openTicks, closeTicks⟩
      have joined : slice? source ⟨first.span.start, last.span.stop⟩ =
          some (opening ++ inner ++ closing) :=
        slice?_join (slice?_join cutOpening cutInner) cutClosing
      rw [starts, stops] at joined
      rw [slice_of_slice? cutInner]
      exact Option.some.inj (cut.symm.trans joined)
    · exact bareCode_spec text
  · exact bareCode_spec text

theorem accounts_code {node : ParseTree} (placed : node.WellPlaced source)
    (role : node.inlineRole = .code) {text : List Char}
    (cut : slice? source node.span = some text) :
    Accounts source (Drops source node) node.span.start node.span.stop
      [codeSpanText source node.span node.children] := by
  obtain ⟨opening, closing, whole, opens, closes⟩ := codeSpanInner_spec placed role cut
  obtain ⟨padding, inner, padded⟩ :=
    withoutPadding_spec (codeSpanInner source node.span node.children)
  have parts : slice? source node.span = some ((opening ++ padding) ++
      codeSpanText source node.span node.children ++ (padding ++ closing)) := by
    rw [cut, whole, codeSpanText]
    nth_rewrite 1 [inner]
    simp only [List.append_assoc]
  exact .of_around parts fun offset around => .ticks role around opens closes padded

theorem accounts_autolink {node : ParseTree} (role : node.inlineRole = .autolink)
    {text : List Char} (cut : slice? source node.span = some text) :
    Accounts source (Drops source node) node.span.start node.span.stop
      [autolinkText source node.span] := by
  obtain ⟨opening, closing, whole, opens, closes⟩ := autolinkText_spec cut
  exact .of_around (whole ▸ cut) fun offset around => .brackets role around opens closes

theorem accounts_escape {node : ParseTree} (placed : node.WellPlaced source)
    (role : node.inlineRole = .escape) {text : List Char}
    (cut : slice? source node.span = some text) :
    Accounts source (Drops source node) node.span.start node.span.stop
      [escapeText source node.span] := by
  have begins := placed.backslash role
  rw [slice_of_slice? cut] at begins
  obtain ⟨rest, rfl⟩ : ∃ rest, text = '\\' :: rest := by
    cases text with
    | nil => cases begins
    | cons c rest => exact ⟨rest, by rw [Option.some.inj begins]⟩
  have kept : escapeText source node.span = rest := by
    rw [escapeText, slice_of_slice? cut]
    exact congrArg (Option.getD · []) (dropBytes?_width_append ['\\'] rest)
  have parts : slice? source node.span = some (['\\'] ++ rest) := cut
  rw [kept]
  refine .drop (by omega) (fun offset low high => .backslash role ?_)
    (.of_keep (slice?_split parts).2)
  change offset < node.span.start + 1 at high
  omega

theorem labelOutlines?_eq (wanted : String) (nodes : List ParseTree) :
    labelOutlines? source wanted nodes = (nodes.find? (·.kind == wanted)).map fun label =>
      inlineOutlines source (trimmed source label.span) (trimmed source label.span).start
        label.children := by
  induction nodes with
  | nil => rfl
  | cons node rest ih =>
    cases node with
    | node kind span children inlines =>
      rw [labelOutlines?, List.find?_cons]
      by_cases own : kind = wanted
      · subst own
        simp [ParseTree.kind, ParseTree.span, ParseTree.children]
      · have other : (kind == wanted) = false := by simp [own]
        rw [if_neg own, ih]
        simp only [ParseTree.kind, other]

theorem accounts_link {node label : ParseTree} (role : node.inlineRole = .link)
    (found : node.label? = some label) {text : List Char}
    (cut : slice? source label.span = some text) (inside : node.span.Includes label.span)
    {texts : List (List Char)}
    (accounts : Accounts source (fun offset => ∃ child ∈ label.children, Drops source child offset)
      (trimmed source label.span).start (trimmed source label.span).stop texts) :
    Accounts source (Drops source node) node.span.start node.span.stop texts := by
  obtain ⟨lead, core, trail, whole, leads, trails, same⟩ := trimmed_spec cut
  have reached := stop_of_slice? cut
  rw [whole, width_append, width_append] at reached
  have parts : slice? source label.span = some (lead ++ core ++ trail) := whole ▸ cut
  rw [same] at accounts
  have ends : ∀ offset, Around source label.span lead core trail offset →
      Drops source node offset :=
    fun offset around => .labelEnds role found around leads trails
  have apart : ∀ offset, node.span.Has offset → ¬label.span.Has offset →
      Drops source node offset := by
    intro offset within beyond
    refine .target role within fun other member => ?_
    rw [found] at member
    obtain rfl := Option.some.inj member
    exact beyond
  have low := inside.1
  have high := inside.2
  have before : Accounts source (Drops source node) node.span.start label.span.start [] :=
    .of_drop low fun offset above below => apart offset ⟨above, by omega⟩ fun has => by
      have := has.1
      omega
  have leading : Accounts source (Drops source node) label.span.start
      (label.span.start + width lead) [] :=
    .of_drop (by omega) fun offset above below => ends offset ⟨parts, .inl ⟨above, below⟩⟩
  have middle := accounts.mono fun offset dropped => by
    obtain ⟨child, member, below⟩ := dropped
    exact Drops.inLabel role found member below
  have trailing : Accounts source (Drops source node)
      (label.span.start + width lead + width core) label.span.stop [] :=
    .of_drop (by omega) fun offset above below => ends offset ⟨parts, .inr ⟨above, below⟩⟩
  have after : Accounts source (Drops source node) label.span.stop node.span.stop [] :=
    .of_drop high fun offset above below => apart offset ⟨by omega, below⟩ fun has => by
      have := has.2
      omega
  simpa using before.append (leading.append (middle.append (trailing.append after)))

theorem inlineOutlines_of_skipped {span : Span} {done : Nat} {node : ParseTree}
    {rest : List ParseTree} (skipped : node.span.stop ≤ node.span.start ∨
      node.span.stop ≤ span.start ∨ span.stop ≤ node.span.start) :
    inlineOutlines source span done (node :: rest) = inlineOutlines source span done rest := by
  rw [inlineOutlines]
  exact if_pos (by omega)

theorem inlineOutlines_of_inside {span : Span} {done : Nat} {node : ParseTree}
    {rest : List ParseTree} (inside : span.Includes node.span)
    (present : node.span.start < node.span.stop) (ahead : done ≤ node.span.start) :
    inlineOutlines source span done (node :: rest) =
      gap source done node.span.start ++ inlineOutline source node ++
        inlineOutlines source span node.span.stop rest := by
  have low := inside.1
  have high := inside.2
  rw [inlineOutlines, if_neg (by omega), Nat.max_eq_left low, Nat.min_eq_left high,
    Nat.max_eq_right (by omega)]

theorem labelled_outlines_eq (kind : String) (span : Span) (children inlines : List ParseTree) :
    (labelOutlines? source "link_text" children).or
        (labelOutlines? source "image_description" children) =
      (ParseTree.node kind span children inlines).label?.map fun label =>
        inlineOutlines source (trimmed source label.span) (trimmed source label.span).start
          label.children := by
  rw [labelOutlines?_eq, labelOutlines?_eq, label?, child?, child?, ParseTree.children]
  cases children.find? (·.kind == "link_text") <;> rfl

theorem mem_of_label? {node label : ParseTree} (found : node.label? = some label) :
    label ∈ node.children := by
  rcases Option.or_eq_some_iff.mp found with isText | ⟨-, isImage⟩
  · exact List.mem_of_find?_eq_some isText
  · exact List.mem_of_find?_eq_some isImage

theorem exists_slice?_trimmed {span : Span} {text : List Char}
    (cut : slice? source span = some text) :
    ∃ core, slice? source (trimmed source span) = some core := by
  obtain ⟨lead, core, trail, rfl, -, -, same⟩ := trimmed_spec cut
  have parts := (slice?_split (List.append_assoc lead core trail ▸ cut)).2
  exact ⟨core, same ▸ (slice?_split parts).1⟩

mutual

/-- A node is accounted for from its start to its end. -/
theorem accounts_inlineOutline (node : ParseTree)
    (placed : ∀ part ∈ node.parts, part.WellPlaced source) {text : List Char}
    (cut : slice? source node.span = some text) :
    Accounts source (Drops source node) node.span.start node.span.stop
      (literalsOf (inlineOutline source node)) := by
  cases node with
  | node kind span children inlines =>
    rw [parts, List.forall_mem_cons] at placed
    obtain ⟨own, lower⟩ := placed
    have forward : span.start ≤ span.stop := by
      have reached := stop_of_slice? cut
      simp only [ParseTree.span] at reached
      omega
    have nested : WellNested source span children :=
      ⟨own.arranged, fun child member => .inl (own.inside child member), lower⟩
    have below : Accounts source (fun offset => ∃ child ∈ children, Drops source child offset)
        span.start span.stop (literalsOf (inlineOutlines source span span.start children)) :=
      accounts_inlineOutlines span span.start children nested (isCut_start cut) (isCut_stop cut)
        (Nat.le_refl _) forward fun child member _ => (own.inside child member).1
    rw [inlineOutline]
    cases role : InlineRole.ofKind kind with
    | delimiter =>
      exact .of_drop forward fun offset low high => .delimiter role ⟨low, high⟩
    | code =>
      rw [literalsOf_leaf (.inr rfl)]
      exact accounts_code own role cut
    | emphasis =>
      rw [literalsOf_branch (by decide) (by decide)]
      exact below.mono fun offset ⟨child, member, dropped⟩ => .inEmphasis (.inl role) member dropped
    | strong =>
      rw [literalsOf_branch (by decide) (by decide)]
      exact below.mono fun offset ⟨child, member, dropped⟩ => .inEmphasis (.inr role) member dropped
    | link =>
      simp only [labelled_outlines_eq kind span children inlines]
      rw [literalsOf_branch (by decide) (by decide)]
      cases found : (ParseTree.node kind span children inlines).label? with
      | none =>
        refine .of_drop forward fun offset low high =>
          .target role ⟨low, high⟩ fun label member => ?_
        rw [found] at member
        cases member
      | some label =>
        have clear := own.label role label found
        have member : label ∈ children := mem_of_label? found
        obtain ⟨labelText, labelCut⟩ := Option.isSome_iff_exists.mp (own.arranged.cut label member)
        have isLink : (ParseTree.node kind span children inlines).inlineRole = .link := role
        refine accounts_link isLink found labelCut (own.inside label member) ?_
        rcases Option.or_eq_some_iff.mp found with isText | ⟨-, isImage⟩
        · exact accounts_label "link_text" children lower isText labelCut clear
        · exact accounts_label "image_description" children lower isImage labelCut clear
    | autolink =>
      rw [literalsOf_leaf (.inl rfl)]
      exact accounts_autolink role cut
    | escape =>
      rw [literalsOf_leaf (.inl rfl)]
      exact accounts_escape own role cut
    | lineBreak =>
      rw [literalsOf_other (by decide) (by decide)]
      exact .of_drop forward fun offset low high => .lineBreak role ⟨low, high⟩
    | plain =>
      have kept : slice source span = text := slice_of_slice? cut
      rw [literalsOf_leaf (.inl rfl), kept]
      exact .of_keep cut

theorem accounts_inlineOutlines (span : Span) (done : Nat) (nodes : List ParseTree)
    (nested : WellNested source span nodes) (reached : IsCut source done)
    (ends : IsCut source span.stop) (low : span.start ≤ done) (high : done ≤ span.stop)
    (ahead : ∀ node ∈ nodes, span.Includes node.span → done ≤ node.span.start) :
    Accounts source (fun offset => ∃ node ∈ nodes, Drops source node offset) done span.stop
      (literalsOf (inlineOutlines source span done nodes)) := by
  cases nodes with
  | nil =>
    rw [inlineOutlines]
    exact accounts_gap reached ends high
  | cons node rest =>
    obtain ⟨⟨ordered, cuts⟩, clear, placed⟩ := nested
    rw [List.pairwise_cons] at ordered
    rw [List.forall_mem_cons] at cuts clear ahead
    rw [partsOf, List.forall_mem_append] at placed
    have nested : WellNested source span rest := ⟨⟨ordered.2, cuts.2⟩, clear.2, placed.2⟩
    by_cases skipped : node.span.stop ≤ node.span.start ∨ node.span.stop ≤ span.start ∨
        span.stop ≤ node.span.start
    · have later := accounts_inlineOutlines span done rest nested reached ends low high ahead.2
      rw [inlineOutlines_of_skipped skipped]
      exact later.mono fun offset ⟨other, member, dropped⟩ =>
        ⟨other, List.mem_cons_of_mem _ member, dropped⟩
    · have inside : span.Includes node.span := clear.1.resolve_right (by omega)
      have present : node.span.start < node.span.stop := by omega
      obtain ⟨text, cut⟩ := Option.isSome_iff_exists.mp cuts.1
      have own := accounts_inlineOutline node placed.1 cut
      have later := accounts_inlineOutlines span node.span.stop rest nested (isCut_stop cut) ends
        (by have := inside.1; omega) inside.2 fun next member _ => ordered.1 next member
      rw [inlineOutlines_of_inside inside present (ahead.1 inside), literalsOf_append,
        literalsOf_append]
      refine ((accounts_gap reached (isCut_start cut) (ahead.1 inside)).append
        (own.mono fun offset dropped => ?_)).append (later.mono fun offset dropped => ?_)
      · exact ⟨node, List.mem_cons_self, dropped⟩
      · obtain ⟨other, member, below⟩ := dropped
        exact ⟨other, List.mem_cons_of_mem _ member, below⟩

theorem accounts_label (wanted : String) (nodes : List ParseTree)
    (placed : ∀ part ∈ partsOf nodes, part.WellPlaced source) {label : ParseTree}
    (found : nodes.find? (·.kind == wanted) = some label) {text : List Char}
    (cut : slice? source label.span = some text)
    (clear : ∀ child ∈ label.children, child.span.Clears (trimmed source label.span)) :
    Accounts source (fun offset => ∃ child ∈ label.children, Drops source child offset)
      (trimmed source label.span).start (trimmed source label.span).stop
      (literalsOf (inlineOutlines source (trimmed source label.span)
        (trimmed source label.span).start label.children)) := by
  cases nodes with
  | nil => cases found
  | cons node rest =>
    rw [partsOf, List.forall_mem_append] at placed
    rw [List.find?_cons] at found
    split at found
    · obtain rfl := Option.some.inj found
      cases node with
      | node kind span children inlines =>
        rw [parts, List.forall_mem_cons] at placed
        obtain ⟨inner, trimmedCut⟩ := exists_slice?_trimmed cut
        have reached := stop_of_slice? trimmedCut
        exact accounts_inlineOutlines _ _ children ⟨placed.1.1.arranged, clear, placed.1.2⟩
          (isCut_start trimmedCut) (isCut_stop trimmedCut) (Nat.le_refl _) (by omega)
          fun child member inside => inside.1
    · exact accounts_label wanted rest placed.2 found cut clear

end

/--
The texts and code spans that stand for a span of inline markup are, in order, the texts of ranges
of the source that lie one after the other in the span, and whatever else the span holds is markup
that is dropped.
-/
theorem inlineWithin_keeps_text (source : List Char) (span : Span) (node : ParseTree)
    (cut : (slice? source span).isSome) (nested : WellNested source span node.inlines) :
    ∃ ranges : List Span,
      (literalsOf (inlineWithin source span node)).map some = ranges.map (slice? source) ∧
      ranges.Pairwise (fun range next => range.stop ≤ next.start) ∧
      (∀ range ∈ ranges, span.Includes range) ∧
      ∀ offset, span.Has offset →
        (∃ range ∈ ranges, range.Has offset) ∨
          ∃ inline ∈ node.inlines, Drops source inline offset := by
  obtain ⟨text, whole⟩ := Option.isSome_iff_exists.mp cut
  have forward := stop_of_slice? whole
  have accounts := accounts_inlineOutlines span span.start node.inlines nested (isCut_start whole)
    (isCut_stop whole) (Nat.le_refl _) (by omega) fun inline member inside => inside.1
  obtain ⟨-, ranges, same, ordered, bounded, covered⟩ := accounts.exists_ranges
  exact ⟨ranges, same, ordered, bounded, fun offset has => covered offset has.1 has.2⟩

def decorated : ParseTree :=
  .node "inline" ⟨0, 22⟩ [] [
    .node "emphasis" ⟨3, 6⟩ [.node "emphasis_delimiter" ⟨3, 4⟩ [] [],
      .node "emphasis_delimiter" ⟨5, 6⟩ [] []] [],
    .node "code_span" ⟨7, 10⟩ [.node "code_span_delimiter" ⟨7, 8⟩ [] [],
      .node "code_span_delimiter" ⟨9, 10⟩ [] []] [],
    .node "inline_link" ⟨11, 19⟩ [.node "link_text" ⟨12, 15⟩ [] [],
      .node "link_destination" ⟨17, 18⟩ [] []] [],
    .node "backslash_escape" ⟨20, 22⟩ [] []]

theorem inlineWithin_keeps_text_decorated :
    let source := "é *b* `c` [ d ](u) \\*".toList
    (slice? source ⟨0, 22⟩).isSome ∧ WellNested source ⟨0, 22⟩ decorated.inlines ∧
    literalsOf (inlineWithin source ⟨0, 22⟩ decorated) =
      ["é ".toList, ['b'], [' '], ['c'], [' '], ['d'], [' '], ['*']] ∧
    ∃ ranges : List Span,
      (literalsOf (inlineWithin source ⟨0, 22⟩ decorated)).map some = ranges.map (slice? source) ∧
      ranges.Pairwise (fun range next => range.stop ≤ next.start) ∧
      (∀ range ∈ ranges, Span.Includes ⟨0, 22⟩ range) ∧
      ∀ offset, Span.Has ⟨0, 22⟩ offset → (∃ range ∈ ranges, range.Has offset) ∨
        ∃ inline ∈ decorated.inlines, Drops source inline offset := by
  intro source
  have cut : (slice? source ⟨0, 22⟩).isSome := by decide +kernel
  have nested : WellNested source ⟨0, 22⟩ decorated.inlines := by decide +kernel
  exact ⟨cut, nested, by decide +kernel,
    inlineWithin_keeps_text source ⟨0, 22⟩ decorated cut nested⟩

end Markdown

end Tangle
