import Mathlib.Data.List.Lex
import Mathlib.Data.List.Sort
import Tangle.Path.Basic

/-!
The order of paths. Paths are compared by their components from the left, and paths with the same
components are equal however they are spelled. A list of paths that is put in order and rid of equal
neighbours is strictly increasing, still has every path up to spelling, and depends only on which
paths the list has (`map_components_arranged`).
-/

namespace Tangle

theorem map_lt_map_iff {α β : Type} [LT α] [LT β] {f : α → β} (mono : ∀ a b, f a < f b ↔ a < b)
    (injective : Function.Injective f) (left right : List α) :
    left.map f < right.map f ↔ left < right := by
  induction left generalizing right with
  | nil => cases right <;> simp
  | cons a left ih =>
    cases right with
    | nil => simp
    | cons b right =>
      simp only [List.map_cons, List.cons_lt_cons_iff, mono, injective.eq_iff, ih]

theorem eraseRepsBy_loop_sublist {α : Type} (r : α → α → Bool) (first : α) (rest done : List α) :
    (List.eraseRepsBy.loop r first rest done).Sublist (done.reverse ++ first :: rest) := by
  induction rest generalizing first done with
  | nil => simp [List.eraseRepsBy.loop]
  | cons next rest ih =>
    rw [List.eraseRepsBy.loop]
    cases r first next with
    | true =>
      refine (ih first done).trans (List.Sublist.append_left ?_ _)
      exact .cons_cons first (List.sublist_cons_self next rest)
    | false => simpa using ih next (first :: done)

theorem eraseRepsBy_sublist {α : Type} (r : α → α → Bool) (items : List α) :
    (items.eraseRepsBy r).Sublist items := by
  cases items with
  | nil => exact .slnil
  | cons first rest => exact eraseRepsBy_loop_sublist r first rest []

namespace Component

def rank : Component → Nat
  | root => 0
  | here => 1
  | up => 2
  | name _ => 3

instance : LT Component where
  lt
    | name left, name right => left < right
    | left, right => left.rank < right.rank

theorem key_injective : Function.Injective key := by
  intro left right same
  cases left <;> cases right <;> simp [key] at same ⊢
  exact (List.map_injective_iff.mpr fun _ _ => UInt8.toNat_inj.mp) same

theorem key_lt_key (left right : Component) : left.key < right.key ↔ left < right := by
  cases left <;> cases right
  case name.name left right =>
    change _ ↔ left < right
    rw [← map_lt_map_iff (fun _ _ => UInt8.lt_iff_toNat_lt.symm) (fun _ _ => UInt8.toNat_inj.mp)]
    simp [key]
  all_goals
    change _ ↔ rank _ < rank _
    simp [key, rank, List.cons_lt_cons_iff]

end Component

namespace Path

theorem key_lt_key {left right : Path} : left.key < right.key ↔ left.components < right.components :=
  map_lt_map_iff Component.key_lt_key Component.key_injective _ _

theorem key_eq_key {left right : Path} : left.key = right.key ↔ left.components = right.components :=
  (List.map_injective_iff.mpr Component.key_injective).eq_iff

theorem precedes_iff {left right : Path} : left.precedes right ↔ left.key ≤ right.key := by
  rw [precedes, Bool.not_eq_true', decide_eq_false_iff_not, not_lt]

theorem same_iff {left right : Path} : left.same right ↔ left.key = right.key := by
  rw [same, beq_iff_eq, key_eq_key]

/-- Paths in order, each once. -/
def arranged (paths : List Path) : List Path := (paths.mergeSort precedes).eraseRepsBy same

section Neighbours

variable {first : Path} {rest done : List Path}

theorem pairwise_eraseRepsBy_loop (sorted : (first :: rest).Pairwise (·.key ≤ ·.key))
    (strict : (done.reverse ++ [first]).Pairwise (·.key < ·.key)) :
    (List.eraseRepsBy.loop same first rest done).Pairwise (·.key < ·.key) := by
  induction rest generalizing first done with
  | nil => simpa [List.eraseRepsBy.loop] using strict
  | cons next rest ih =>
    rw [List.eraseRepsBy.loop]
    cases alike : same first next with
    | true =>
      exact ih (sorted.sublist (.cons_cons first (List.sublist_cons_self next rest))) strict
    | false =>
      have apart : first.key < next.key := by
        apply lt_of_le_of_ne ((List.pairwise_cons.mp sorted).1 next List.mem_cons_self)
        intro equal
        rw [← same_iff, alike] at equal
        cases equal
      apply ih sorted.tail
      rw [List.reverse_cons, List.pairwise_append]
      refine ⟨strict, List.pairwise_singleton _ _, ?_⟩
      intro earlier member last final
      rw [List.mem_singleton] at final
      rw [List.mem_append, List.mem_singleton] at member
      subst final
      rcases member with before | rfl
      · have less := (List.pairwise_append.mp strict).2.2 earlier before first (by simp)
        exact less.trans apart
      · exact apart

/-- For every path one with the same key is kept. -/
theorem exists_eraseRepsBy_loop : ∀ path ∈ done.reverse ++ first :: rest,
    ∃ kept ∈ List.eraseRepsBy.loop same first rest done, kept.key = path.key := by
  induction rest generalizing first done with
  | nil =>
    intro path member
    exact ⟨path, by simpa [List.eraseRepsBy.loop] using member, rfl⟩
  | cons next rest ih =>
    intro path member
    rw [List.eraseRepsBy.loop]
    cases alike : same first next with
    | true =>
      by_cases dropped : path = next
      · have stays : first ∈ done.reverse ++ first :: rest := by simp
        obtain ⟨kept, found, equal⟩ := ih first stays
        rw [dropped, ← same_iff.mp alike]
        exact ⟨kept, found, equal⟩
      · apply ih path
        simpa [dropped] using member
    | false => exact ih path (by simpa using member)

end Neighbours

theorem pairwise_mergeSort (paths : List Path) :
    (paths.mergeSort precedes).Pairwise (·.key ≤ ·.key) := by
  have sorted : (paths.mergeSort precedes).Pairwise fun left right => left.precedes right := by
    apply List.pairwise_mergeSort
    · intro first second third
      rw [precedes_iff, precedes_iff, precedes_iff]
      exact le_trans
    · intro first second
      rw [Bool.or_eq_true, precedes_iff, precedes_iff]
      exact le_total _ _
  exact sorted.imp precedes_iff.mp

theorem pairwise_arranged (paths : List Path) : (arranged paths).Pairwise (·.key < ·.key) := by
  have sorted := pairwise_mergeSort paths
  rw [arranged]
  cases parts : paths.mergeSort precedes with
  | nil => exact .nil
  | cons first rest =>
    rw [parts] at sorted
    exact pairwise_eraseRepsBy_loop sorted (List.pairwise_singleton _ _)

theorem mem_of_mem_arranged {path : Path} {paths : List Path} (member : path ∈ arranged paths) :
    path ∈ paths :=
  List.mem_mergeSort.mp ((eraseRepsBy_sublist _ _).subset member)

theorem exists_mem_arranged {path : Path} {paths : List Path} (member : path ∈ paths) :
    ∃ kept ∈ arranged paths, kept.key = path.key := by
  have among : path ∈ paths.mergeSort precedes := List.mem_mergeSort.mpr member
  rw [arranged]
  cases parts : paths.mergeSort precedes with
  | nil =>
    rw [parts] at among
    cases among
  | cons first rest =>
    rw [parts] at among
    exact exists_eraseRepsBy_loop path (by simpa using among)

theorem mem_map_key_arranged {paths : List Path} {key : List (List Nat)} :
    key ∈ (arranged paths).map Path.key ↔ key ∈ paths.map Path.key := by
  rw [List.mem_map, List.mem_map]
  constructor
  · rintro ⟨path, member, rfl⟩
    exact ⟨path, mem_of_mem_arranged member, rfl⟩
  · rintro ⟨path, member, rfl⟩
    exact exists_mem_arranged member

theorem eq_of_increasing {left right : List (List (List Nat))} (first : left.Pairwise (· < ·))
    (second : right.Pairwise (· < ·)) (members : ∀ key, key ∈ left ↔ key ∈ right) :
    left = right := by
  have nodup : ∀ {list : List (List (List Nat))}, list.Pairwise (· < ·) → list.Nodup :=
    fun strict => strict.imp fun less => less.ne
  have perm := (List.perm_ext_iff_of_nodup (nodup first) (nodup second)).mpr members
  exact perm.eq_of_pairwise (fun _ _ _ _ less more => absurd more less.asymm) first second

/-- How paths are arranged depends on which paths there are, and not on their order and number. -/
theorem map_components_arranged {paths others : List Path}
    (alike : ∀ path, path ∈ paths ↔ path ∈ others) :
    (arranged paths).map components = (arranged others).map components := by
  have strict : ∀ list, ((arranged list).map key).Pairwise (· < ·) := fun list =>
    List.pairwise_map.mpr (pairwise_arranged list)
  have keys : (arranged paths).map key = (arranged others).map key := by
    apply eq_of_increasing (strict paths) (strict others)
    intro value
    rw [mem_map_key_arranged, mem_map_key_arranged, List.mem_map, List.mem_map]
    simp only [alike]
  apply List.map_injective_iff.mpr (List.map_injective_iff.mpr Component.key_injective)
  rw [List.map_map, List.map_map]
  exact keys

theorem arranged_of_increasing {paths : List Path} (increasing : paths.Pairwise (·.key < ·.key)) :
    arranged paths = paths := by
  have sorted : paths.Pairwise fun left right => left.precedes right :=
    increasing.imp fun less => precedes_iff.mpr less.le
  have within : (arranged paths).Sublist paths := by
    rw [arranged, List.mergeSort_of_pairwise sorted]
    exact eraseRepsBy_sublist _ _
  have keys : (arranged paths).map key = paths.map key := by
    apply eq_of_increasing (List.pairwise_map.mpr (pairwise_arranged paths))
      (List.pairwise_map.mpr increasing)
    exact fun _ => mem_map_key_arranged
  apply within.eq_of_length
  simpa using congrArg List.length keys

end Path

end Tangle
