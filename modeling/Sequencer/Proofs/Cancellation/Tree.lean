import Sequencer.Cancellation
import Mathlib.Data.Finset.Card

/-!
# The tree of tokens — what cancelling a token reaches

A token is above another one if the parents of the latter lead to it.  The list of tokens that
cancelling tells is put together from the lists of children, with others put off on the way, and
tokens leave the tree whenever nobody holds them any more.  All the same it reaches what is below
the token and nothing else, as long as the parents and the children agree with each other.
-/

namespace Sequencer

namespace Cancellation

variable {x : Cancellation} {a p r t : Nat}

/-! ## 1. Tokens -/

theorem token_eq (x : Cancellation) (t : Nat) :
    x.token t = x.tokens[t]?.getD { cancelled := true } :=
  Array.getD_eq_getD_getElem?

theorem token_unknown (h : x.tokens.size ≤ t) : x.token t = { cancelled := true } := by
  rw [token_eq, Array.getElem?_eq_none h]
  rfl

/-- A token that is not cancelled is a known one. -/
theorem lt_size_of_live (h : x.isCancelled t = false) : t < x.tokens.size := by
  by_contra hunknown
  unfold isCancelled at h
  rw [token_unknown (not_lt.mp hunknown)] at h
  exact absurd h (by decide)

/-- A token with a parent is a known one. -/
theorem lt_size_of_parent (h : (x.token t).parent = some p) : t < x.tokens.size := by
  by_contra hunknown
  rw [token_unknown (not_lt.mp hunknown)] at h
  exact absurd h (by simp)

@[simp] theorem size_modify (x : Cancellation) (t : Nat) (f : Token → Token) :
    (x.modify t f).tokens.size = x.tokens.size :=
  Array.size_modify

theorem token_modify (x : Cancellation) (t : Nat) (f : Token → Token) (r : Nat) :
    (x.modify t f).token r =
      if r = t ∧ r < x.tokens.size then f (x.token r) else x.token r := by
  unfold modify
  rw [token_eq, token_eq, Array.getElem?_modify]
  by_cases hlt : r < x.tokens.size
  · rw [Array.getElem?_eq_getElem hlt]
    by_cases heq : t = r
    · rw [if_pos heq, if_pos ⟨heq.symm, hlt⟩]
      rfl
    · rw [if_neg heq, if_neg (not_and_of_not_left _ (Ne.symm heq))]
  · rw [Array.getElem?_eq_none (not_lt.mp hlt), if_neg (not_and_of_not_right _ hlt)]
    split <;> rfl

/-- A change that does nothing to a token it was made to already, made to a list of tokens. -/
theorem token_foldl_modify (f : Nat → Token → Token) (hf : ∀ t token, f t (f t token) = f t token)
    (list : List Nat) (x : Cancellation) (r : Nat) :
    (list.foldl (fun x t => x.modify t (f t)) x).token r =
      if r ∈ list ∧ r < x.tokens.size then f r (x.token r) else x.token r := by
  induction list generalizing x with
  | nil => exact (if_neg fun h => absurd h.1 List.not_mem_nil).symm
  | cons t list ih =>
    rw [List.foldl_cons, ih, size_modify, token_modify]
    by_cases heq : r = t
    · -- It may come again in the rest of the list, and is changed already then.
      subst heq
      by_cases hlt : r < x.tokens.size
      · simp only [hlt, and_true, if_true, hf, ite_self, List.mem_cons_self]
      · simp only [hlt, and_false, if_false]
    · simp only [heq, false_and, if_false, List.mem_cons, false_or]

theorem size_foldl_modify (f : Nat → Token → Token) (list : List Nat) (x : Cancellation) :
    (list.foldl (fun x t => x.modify t (f t)) x).tokens.size = x.tokens.size := by
  induction list generalizing x with
  | nil => rfl
  | cons t list ih => rw [List.foldl_cons, ih, size_modify]

/-! ## 2. Above and below -/

/-- `a` is `t`, or its parents lead to it. -/
inductive Above (x : Cancellation) (a : Nat) : Nat → Prop where
  | self : Above x a a
  | under {p t : Nat} (hparent : (x.token t).parent = some p) (h : Above x a p) : Above x a t

theorem Above.trans (h : x.Above a p) (h' : x.Above p t) : x.Above a t := by
  induction h' with
  | self => exact h
  | under hparent _ ih => exact .under hparent ih

/-- Below a token there are only itself and what is below one of those it is the parent of. -/
theorem Above.split (h : x.Above a t) :
    t = a ∨ ∃ c, (x.token c).parent = some a ∧ x.Above c t := by
  induction h with
  | self => exact .inl rfl
  | under hparent _ ih =>
    rcases ih with rfl | ⟨c, hc, hbelow⟩
    · exact .inr ⟨_, hparent, .self⟩
    · exact .inr ⟨c, hc, .under hparent hbelow⟩

/-- The parents and the children of the tokens agree with each other. -/
structure WellLinked (x : Cancellation) : Prop where
  /-- A token is made after its parent. -/
  older : ∀ t p, (x.token t).parent = some p → p < t
  parents : ∀ p c, c ∈ (x.token p).children → (x.token c).parent = some p
  distinct : ∀ p, (x.token p).children.Nodup
  /-- Below a cancelled token all tokens are. -/
  live : ∀ t p, (x.token t).parent = some p → x.isCancelled t = false → x.isCancelled p = false
  /-- A token that is not cancelled has everything it is the parent of among its children. -/
  listed : ∀ t p, (x.token t).parent = some p → x.isCancelled p = false →
    t ∈ (x.token p).children
  /-- A cancelled token has no children any more. -/
  barren : ∀ t, x.isCancelled t = true → (x.token t).children = []

namespace WellLinked

theorem le_of_above (linked : x.WellLinked) (h : x.Above a t) : a ≤ t := by
  induction h with
  | self => exact le_rfl
  | under hparent _ ih => exact le_trans ih (le_of_lt (linked.older _ _ hparent))

theorem live_of_above (linked : x.WellLinked) (h : x.Above a t) (hlive : x.isCancelled t = false) :
    x.isCancelled a = false := by
  induction h with
  | self => exact hlive
  | under hparent _ ih => exact ih (linked.live _ _ hparent hlive)

/-- What is below one of two tokens with one parent is not below the other. -/
theorem apart_of_parent (linked : x.WellLinked) {c d : Nat} (hc : (x.token c).parent = some p)
    (hd : (x.token d).parent = some p) (hne : c ≠ d) : ¬ x.Above c d := by
  intro h
  cases h with
  | self => exact hne rfl
  | under hparent h =>
    rw [hd] at hparent
    cases hparent
    exact absurd (linked.le_of_above h) (not_le.mpr (linked.older c p hc))

/-- A token without children has nothing below it, unless it is cancelled. -/
theorem eq_of_childless (linked : x.WellLinked) (hlive : x.isCancelled a = false)
    (hnone : (x.token a).children = []) (h : x.Above a t) : t = a := by
  rcases h.split with heq | ⟨c, hc, -⟩
  · exact heq
  · have hmem := linked.listed c a hc hlive
    rw [hnone] at hmem
    exact absurd hmem List.not_mem_nil

end WellLinked

/-! ## 3. What cancelling reaches -/

/-- The tokens below a list of tokens. -/
noncomputable def span (x : Cancellation) (list : List Nat) : Finset Nat :=
  open Classical in (Finset.range x.tokens.size).filter fun r => ∃ a ∈ list, x.Above a r

theorem mem_span {list : List Nat} :
    r ∈ x.span list ↔ r < x.tokens.size ∧ ∃ a ∈ list, x.Above a r := by
  simp only [span, Finset.mem_filter, Finset.mem_range]

/-- No token of the list is below another one of it. -/
def Apart (x : Cancellation) (list : List Nat) : Prop :=
  list.Pairwise fun a b => ¬ x.Above a b ∧ ¬ x.Above b a

/-- Tokens whose parent is `t`, each once. -/
structure Brood (x : Cancellation) (t : Nat) (list : List Nat) : Prop where
  distinct : list.Nodup
  parents : ∀ c ∈ list, (x.token c).parent = some t

namespace WellLinked

theorem brood_of_sublist (linked : x.WellLinked) {list : List Nat}
    (h : list.Sublist (x.token t).children) : x.Brood t list where
  distinct := (linked.distinct t).sublist h
  parents c hc := linked.parents t c (h.subset hc)

theorem apart_brood (linked : x.WellLinked) {list : List Nat} (brood : x.Brood t list) :
    x.Apart list :=
  brood.distinct.imp_of_mem fun hc hd hne =>
    ⟨linked.apart_of_parent (brood.parents _ hc) (brood.parents _ hd) hne,
      linked.apart_of_parent (brood.parents _ hd) (brood.parents _ hc) hne.symm⟩

/-- A token gives way to some of those it is the parent of. -/
theorem apart_append (linked : x.WellLinked) {list rest : List Nat} (brood : x.Brood t list)
    (h : x.Apart (t :: rest)) : x.Apart (list ++ rest) := by
  obtain ⟨hhead, hrest⟩ := List.pairwise_cons.mp h
  refine List.pairwise_append.mpr ⟨linked.apart_brood brood, hrest, fun c hc b hb => ?_⟩
  have hparent := brood.parents c hc
  have hunder : x.Above t c := .under hparent .self
  refine ⟨fun hcb => (hhead b hb).1 (hunder.trans hcb), fun hbc => ?_⟩
  cases hbc with
  | self => exact (hhead c hb).1 hunder
  | under hother hbp =>
    rw [hparent] at hother
    cases hother
    exact (hhead b hb).2 hbp

/-- The span gets smaller when the first token of a list gives way to some of those it is the
parent of. -/
theorem card_span_lt (linked : x.WellLinked) {list rest : List Nat} (brood : x.Brood t list)
    (h : x.Apart (t :: rest)) (hknown : t < x.tokens.size) :
    (x.span (list ++ rest)).card < (x.span (t :: rest)).card := by
  refine Finset.card_lt_card ⟨fun r hr => ?_, fun hback => ?_⟩
  · obtain ⟨hlt, a, ha, habove⟩ := mem_span.mp hr
    refine mem_span.mpr ⟨hlt, ?_⟩
    rcases List.mem_append.mp ha with ha | ha
    · exact ⟨t, List.mem_cons_self, .trans (.under (brood.parents a ha) .self) habove⟩
    · exact ⟨a, List.mem_cons_of_mem t ha, habove⟩
  · -- The token itself is below none of those that are left.
    have ht : t ∈ x.span (list ++ rest) :=
      hback (mem_span.mpr ⟨hknown, t, List.mem_cons_self, .self⟩)
    obtain ⟨-, a, ha, habove⟩ := mem_span.mp ht
    rcases List.mem_append.mp ha with ha | ha
    · exact absurd (linked.le_of_above habove)
        (not_le.mpr (linked.older a t (brood.parents a ha)))
    · exact ((List.pairwise_cons.mp h).1 a ha).2 habove

end WellLinked

/-- The children of a token that are told before it. -/
def leaves (x : Cancellation) (t : Nat) : List Nat :=
  (x.token t).children.reverse.filter fun c =>
    (x.token c).children.isEmpty && !x.isCancelled c

/-- The children of a token that are put off. -/
def boughs (x : Cancellation) (t : Nat) : List Nat :=
  (x.token t).children.reverse.filter fun c =>
    !(x.token c).children.isEmpty && !x.isCancelled c

theorem below_live {fuel : Nat} {rest : List Nat} (h : x.isCancelled t = false) :
    x.below (fuel + 1) (t :: rest) =
      x.leaves t ++ t :: x.below fuel ((x.boughs t).reverse ++ rest) := by
  rw [below, if_neg (by rw [h]; decide)]
  simp only [List.partition_eq_filter_filter, List.filter_filter]
  rfl

theorem WellLinked.brood_boughs (linked : x.WellLinked) :
    x.Brood t (x.boughs t).reverse := by
  refine linked.brood_of_sublist ?_
  unfold boughs
  rw [← List.filter_reverse, List.reverse_reverse]
  exact List.filter_sublist

/-- What is below a token and not cancelled is the token itself, a leaf, or below a bough. -/
theorem WellLinked.above_iff (linked : x.WellLinked) (hr : x.isCancelled r = false) :
    x.Above t r ↔ r ∈ x.leaves t ∨ r = t ∨ ∃ c ∈ x.boughs t, x.Above c r := by
  constructor
  · intro h
    rcases h.split with heq | ⟨c, hparent, hbelow⟩
    · exact .inr (.inl heq)
    · have hc := linked.live_of_above hbelow hr
      have hmem : c ∈ (x.token t).children.reverse :=
        List.mem_reverse.mpr (linked.listed c t hparent (linked.live c t hparent hc))
      cases hnone : (x.token c).children with
      | nil =>
        rw [linked.eq_of_childless hc hnone hbelow]
        exact .inl (List.mem_filter.mpr ⟨hmem, by rw [hnone, hc]; rfl⟩)
      | cons d rest =>
        exact .inr (.inr ⟨c, List.mem_filter.mpr ⟨hmem, by rw [hnone, hc]; rfl⟩, hbelow⟩)
  · rintro (h | rfl | ⟨c, hc, hbelow⟩)
    · exact .under (linked.parents t r (List.mem_reverse.mp (List.mem_filter.mp h).1)) .self
    · exact .self
    · exact .trans
        (.under (linked.parents t c (List.mem_reverse.mp (List.mem_filter.mp hc).1)) .self) hbelow

theorem WellLinked.live_of_mem_leaves (h : r ∈ x.leaves t) : x.isCancelled r = false := by
  have hlive := (List.mem_filter.mp h).2
  rw [Bool.and_eq_true, Bool.not_eq_true'] at hlive
  exact hlive.2

/-- The tokens that are told are those below the list that are not cancelled, once the fuel is
enough for all of them. -/
theorem WellLinked.mem_below (linked : x.WellLinked) {fuel : Nat} {list : List Nat}
    (hfuel : (x.span list).card ≤ fuel) (hapart : x.Apart list)
    (hknown : ∀ a ∈ list, a < x.tokens.size) :
    r ∈ x.below fuel list ↔ x.isCancelled r = false ∧ ∃ a ∈ list, x.Above a r := by
  induction fuel generalizing list with
  | zero =>
    unfold below
    refine ⟨fun h => absurd h List.not_mem_nil, fun ⟨hlive, hbelow⟩ => ?_⟩
    have hempty := Finset.card_eq_zero.mp (Nat.le_zero.mp hfuel)
    have hr : r ∈ x.span list := mem_span.mpr ⟨lt_size_of_live hlive, hbelow⟩
    rw [hempty] at hr
    exact absurd hr (Finset.notMem_empty r)
  | succ fuel ih =>
    cases list with
    | nil =>
      unfold below
      exact ⟨fun h => absurd h List.not_mem_nil, fun ⟨_, _, ha, _⟩ => absurd ha List.not_mem_nil⟩
    | cons t rest =>
      have ht : t < x.tokens.size := hknown t List.mem_cons_self
      have hrest : ∀ a ∈ rest, a < x.tokens.size := fun a ha =>
        hknown a (List.mem_cons_of_mem t ha)
      -- Whatever the token gives way to, there is fuel for it.
      have hnext : ∀ {list : List Nat}, x.Brood t list →
          (r ∈ x.below fuel (list ++ rest) ↔
            x.isCancelled r = false ∧ ∃ a ∈ list ++ rest, x.Above a r) := by
        intro list brood
        refine ih ?_ (linked.apart_append brood hapart) fun a ha => ?_
        · exact Nat.le_of_lt_succ
            (lt_of_lt_of_le (linked.card_span_lt brood hapart ht) hfuel)
        · rcases List.mem_append.mp ha with ha | ha
          · exact lt_size_of_parent (brood.parents a ha)
          · exact hrest a ha
      simp only [List.mem_cons, exists_eq_or_imp]
      by_cases hlive : x.isCancelled t = false
      · rw [below_live hlive, List.mem_append, List.mem_cons, hnext linked.brood_boughs]
        simp only [List.mem_append, List.mem_reverse, or_and_right, exists_or]
        constructor
        · rintro (h | rfl | ⟨hr, h⟩)
          · have hr := live_of_mem_leaves h
            exact ⟨hr, .inl ((linked.above_iff hr).mpr (.inl h))⟩
          · exact ⟨hlive, .inl .self⟩
          · exact ⟨hr, h.imp_left fun h => (linked.above_iff hr).mpr (.inr (.inr h))⟩
        · rintro ⟨hr, h | h⟩
          · rcases (linked.above_iff hr).mp h with h | h | h
            · exact .inl h
            · exact .inr (.inl h)
            · exact .inr (.inr ⟨hr, .inl h⟩)
          · exact .inr (.inr ⟨hr, .inr h⟩)
      · have hnot : x.isCancelled r = false → ¬ x.Above t r := fun hr h =>
          hlive (linked.live_of_above h hr)
        rw [below, if_pos (Bool.eq_true_of_not_eq_false hlive),
          show rest = [] ++ rest from rfl,
          hnext (linked.brood_of_sublist (List.nil_sublist _))]
        exact and_congr_right fun hr => (or_iff_right (hnot hr)).symm

/-- Cancelling a token reaches what is below it and not cancelled. -/
theorem WellLinked.mem_reached (linked : x.WellLinked) :
    r ∈ x.reached t ↔ x.isCancelled r = false ∧ x.Above t r := by
  unfold reached
  split
  · next hcancelled =>
    refine ⟨fun h => absurd h List.not_mem_nil, fun ⟨hr, h⟩ => ?_⟩
    rw [linked.live_of_above h hr] at hcancelled
    exact absurd hcancelled (by decide)
  · next hlive =>
    rw [Bool.not_eq_true] at hlive
    have brood : x.Brood t (x.token t).children.reverse :=
      { distinct := List.nodup_reverse.mpr (linked.distinct t)
        parents := fun c hc => linked.parents t c (List.mem_reverse.mp hc) }
    -- Half of the fuel is enough, since no token is met twice.
    have hcard : (x.span (x.token t).children.reverse).card ≤ 2 * x.tokens.size := by
      have hle := Finset.card_le_card fun r (hr : r ∈ x.span (x.token t).children.reverse) =>
        Finset.mem_range.mpr (mem_span.mp hr).1
      rw [Finset.card_range] at hle
      omega
    rw [List.mem_append, List.mem_singleton, linked.mem_below hcard (linked.apart_brood brood)
      fun c hc => lt_size_of_parent (brood.parents c hc)]
    constructor
    · rintro (⟨hr, c, hc, h⟩ | rfl)
      · exact ⟨hr, .trans (.under (brood.parents c hc) .self) h⟩
      · exact ⟨hlive, .self⟩
    · rintro ⟨hr, h⟩
      rcases h.split with heq | ⟨c, hparent, hbelow⟩
      · exact .inr heq
      · exact .inl ⟨hr, c, List.mem_reverse.mpr (linked.listed c t hparent hlive), hbelow⟩

/-! ## 4. Cancelling -/

/-- A token as it is after `t` was cancelled, which reached it. -/
def Token.ended (t r : Nat) (token : Token) : Token :=
  { token with
    cancelled := true
    children := []
    parent := if r = t then token.parent else none }

theorem token_cancel (linked : x.WellLinked) (t r : Nat) :
    (x.cancel t).1.token r =
      if r ∈ x.reached t then (x.token r).ended t r else x.token r := by
  have hagain : ∀ r token, Token.ended t r (Token.ended t r token) = Token.ended t r token := by
    intro r token
    unfold Token.ended
    split <;> rfl
  refine (token_foldl_modify (Token.ended t) hagain (x.reached t) x r).trans ?_
  have hknown : r ∈ x.reached t → r < x.tokens.size := fun h =>
    lt_size_of_live (linked.mem_reached.mp h).1
  simp only [and_iff_left_of_imp hknown]

@[simp] theorem size_cancel (x : Cancellation) (t : Nat) :
    (x.cancel t).1.tokens.size = x.tokens.size :=
  size_foldl_modify (Token.ended t) (x.reached t) x

theorem holders_cancel (linked : x.WellLinked) (t r : Nat) :
    ((x.cancel t).1.token r).holders = (x.token r).holders := by
  rw [token_cancel linked]
  split <;> rfl

theorem cancel_of_cancelled (h : x.isCancelled t = true) : (x.cancel t).1 = x := by
  unfold cancel reached
  rw [if_pos h]
  rfl

/-- Cancelling a token cancels what is below it, and nothing else. -/
theorem isCancelled_cancel (linked : x.WellLinked) :
    (x.cancel t).1.isCancelled r = true ↔ x.isCancelled r = true ∨ x.Above t r := by
  unfold isCancelled
  rw [token_cancel linked]
  split
  · next h => exact iff_of_true rfl (.inr (linked.mem_reached.mp h).2)
  · next h =>
    refine (or_iff_left_of_imp fun habove => ?_).symm
    by_contra hlive
    exact h (linked.mem_reached.mpr ⟨eq_false_of_ne_true hlive, habove⟩)

theorem live_cancel (linked : x.WellLinked) :
    (x.cancel t).1.isCancelled r = false ↔ x.isCancelled r = false ∧ ¬ x.Above t r := by
  rw [← Bool.not_eq_true, isCancelled_cancel linked, not_or, Bool.not_eq_true]

/-- What is not below the token stays as it is. -/
theorem token_cancel_apart (linked : x.WellLinked) (h : ¬ x.Above t r) :
    (x.cancel t).1.token r = x.token r := by
  rw [token_cancel linked, if_neg fun hr => h (linked.mem_reached.mp hr).2]

/-- Nothing goes to another place. -/
theorem parent_of_cancel (linked : x.WellLinked)
    (h : ((x.cancel t).1.token r).parent = some p) : (x.token r).parent = some p := by
  rw [token_cancel linked] at h
  split at h
  · unfold Token.ended at h
    simp only at h
    split at h
    · exact h
    · cases h
  · exact h

theorem children_cancel (linked : x.WellLinked) (t p : Nat) :
    ((x.cancel t).1.token p).children = if p ∈ x.reached t then [] else (x.token p).children := by
  rw [token_cancel linked]
  split <;> rfl

theorem above_cancel (linked : x.WellLinked) (h : (x.cancel t).1.isCancelled r = false) :
    (x.cancel t).1.Above a r ↔ x.Above a r := by
  have hapart := ((live_cancel linked).mp h).2
  constructor <;> intro habove
  · clear h hapart
    induction habove with
    | self => exact .self
    | under hparent _ ih => exact .under (parent_of_cancel linked hparent) ih
  · clear h
    induction habove with
    | self => exact .self
    | under hparent _ ih =>
      refine .under ?_ (ih fun hp => hapart (.under hparent hp))
      rw [token_cancel_apart linked hapart]
      exact hparent

theorem WellLinked.cancel (linked : x.WellLinked) (t : Nat) : (x.cancel t).1.WellLinked where
  older r p h := linked.older r p (parent_of_cancel linked h)
  parents p c hc := by
    rw [children_cancel linked] at hc
    split at hc
    · exact absurd hc List.not_mem_nil
    · next hp =>
      have hparent := linked.parents p c hc
      rw [token_cancel linked]
      split
      · next hreached =>
        -- A token that is reached below one that is not: it is the cancelled one itself.
        obtain ⟨hlive, habove⟩ := linked.mem_reached.mp hreached
        have htop : c = t := by
          cases habove with
          | self => rfl
          | under hother habove =>
            rw [hparent] at hother
            cases hother
            exact absurd (linked.mem_reached.mpr ⟨linked.live c p hparent hlive, habove⟩) hp
        unfold Token.ended
        rw [if_pos htop]
        exact hparent
      · exact hparent
  distinct p := by
    rw [children_cancel linked]
    split
    · exact List.nodup_nil
    · exact linked.distinct p
  live r p h hr := by
    obtain ⟨hlive, hapart⟩ := (live_cancel linked).mp hr
    have hparent := parent_of_cancel linked h
    exact (live_cancel linked).mpr
      ⟨linked.live r p hparent hlive, fun habove => hapart (.under hparent habove)⟩
  listed r p h hp := by
    obtain ⟨hlive, hapart⟩ := (live_cancel linked).mp hp
    rw [token_cancel_apart linked hapart]
    exact linked.listed r p (parent_of_cancel linked h) hlive
  barren r hr := by
    rw [children_cancel linked]
    split
    · rfl
    · next hreached =>
      unfold isCancelled at hr
      rw [token_cancel linked, if_neg hreached] at hr
      exact linked.barren r hr

end Cancellation

end Sequencer
