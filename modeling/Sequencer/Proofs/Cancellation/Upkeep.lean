import Sequencer.Proofs.Cancellation.Tree
import Mathlib.Data.List.Nodup

/-!
# Upkeep — tokens come under others and leave the tree

A token is made under another one, is held by one more or by one less, and leaves the tree with the
last of them.  What is below what changes only where a token comes or leaves, and the parents and
the children go on to agree with each other.
-/

namespace Sequencer

namespace Cancellation

variable {x : Cancellation} {a p r t : Nat}

/-! ## 1. Tokens under others -/

/-- The tokens stand in the same places, perhaps held by others. -/
structure Alike (x y : Cancellation) : Prop where
  cancelled : ∀ t, (y.token t).cancelled = (x.token t).cancelled
  parent : ∀ t, (y.token t).parent = (x.token t).parent
  children : ∀ t, (y.token t).children = (x.token t).children

namespace Alike

variable {y : Cancellation}

theorem isCancelled (alike : x.Alike y) (t : Nat) : y.isCancelled t = x.isCancelled t :=
  alike.cancelled t

theorem symm (alike : x.Alike y) : y.Alike x where
  cancelled t := (alike.cancelled t).symm
  parent t := (alike.parent t).symm
  children t := (alike.children t).symm

theorem above (alike : x.Alike y) (h : x.Above a t) : y.Above a t := by
  induction h with
  | self => exact .self
  | under hparent _ ih => exact .under ((alike.parent _).trans hparent) ih

theorem above_iff (alike : x.Alike y) : y.Above a t ↔ x.Above a t :=
  ⟨alike.symm.above, alike.above⟩

theorem wellLinked (alike : x.Alike y) (linked : x.WellLinked) : y.WellLinked where
  older t p h := linked.older t p (by rwa [← alike.parent])
  parents p c h := by
    rw [alike.parent]
    exact linked.parents p c (by rwa [← alike.children])
  distinct p := by
    rw [alike.children]
    exact linked.distinct p
  live t p h ht := by
    rw [alike.isCancelled] at ht ⊢
    exact linked.live t p (by rwa [← alike.parent]) ht
  listed t p h hp := by
    rw [alike.isCancelled] at hp
    rw [alike.children]
    exact linked.listed t p (by rwa [← alike.parent]) hp
  barren t ht := by
    rw [alike.isCancelled] at ht
    rw [alike.children]
    exact linked.barren t ht

end Alike

/-- Tokens that are made on their own. -/
theorem wellLinked_bare (hparent : ∀ t, (x.token t).parent = none)
    (hchildren : ∀ t, (x.token t).children = []) : x.WellLinked where
  older t p h := by
    rw [hparent] at h
    cases h
  parents p c h := by
    rw [hchildren] at h
    exact absurd h List.not_mem_nil
  distinct p := by
    rw [hchildren]
    exact List.nodup_nil
  live t p h := by
    rw [hparent] at h
    cases h
  listed t p h := by
    rw [hparent] at h
    cases h
  barren t _ := hchildren t

@[simp] theorem child_number (x : Cancellation) (p : Nat) : (x.child p).2 = x.tokens.size := by
  unfold child
  split <;> rfl

@[simp] theorem size_child (x : Cancellation) (p : Nat) :
    (x.child p).1.tokens.size = x.tokens.size + 1 := by
  unfold child
  split
  · exact Array.size_push _
  · exact (size_modify _ _ _).trans (Array.size_push _)

theorem token_push (x : Cancellation) (token : Token) (r : Nat) :
    (Cancellation.mk (x.tokens.push token)).token r =
      if r = x.tokens.size then token else x.token r := by
  rw [token_eq, token_eq, Array.getElem?_push]
  split <;> rfl

/-- A token under a cancelled one is as good as one that was never made. -/
theorem token_child_cancelled (h : x.isCancelled p = true) (r : Nat) :
    (x.child p).1.token r = x.token r := by
  unfold child
  rw [if_pos h, token_push]
  split
  · next heq => rw [heq, token_unknown le_rfl]
  · rfl

theorem token_child_live (h : x.isCancelled p = false) (r : Nat) :
    (x.child p).1.token r =
      if r = x.tokens.size then { parent := some p }
      else if r = p then
        { x.token r with children := (x.token r).children ++ [x.tokens.size] }
      else x.token r := by
  have hp : p < x.tokens.size := lt_size_of_live h
  unfold child
  rw [if_neg (by rw [h]; decide)]
  simp only [token_modify, token_push, Array.size_push]
  by_cases hnew : r = x.tokens.size
  · subst hnew
    rw [if_neg fun h => absurd h.1 (Nat.ne_of_gt hp), if_pos rfl, if_pos rfl]
  · rw [if_neg hnew, if_neg hnew]
    by_cases heq : r = p
    · rw [if_pos ⟨heq, by omega⟩, if_pos heq]
    · rw [if_neg fun h => heq h.1, if_neg heq]

theorem isCancelled_child (x : Cancellation) (p r : Nat) :
    (x.child p).1.isCancelled r =
      if r = x.tokens.size then x.isCancelled p else x.isCancelled r := by
  unfold isCancelled
  cases hp : (x.token p).cancelled with
  | true =>
    rw [token_child_cancelled hp]
    split
    · next heq => rw [heq, token_unknown le_rfl]
    · rfl
  | false =>
    rw [token_child_live hp]
    split
    · rfl
    · split <;> rfl

theorem holders_child (x : Cancellation) (p r : Nat) :
    ((x.child p).1.token r).holders = (x.token r).holders := by
  cases hp : x.isCancelled p with
  | true => rw [token_child_cancelled hp]
  | false =>
    rw [token_child_live hp]
    split
    · next heq => rw [heq, token_unknown le_rfl]
    · split <;> rfl

theorem parent_child_live (h : x.isCancelled p = false) (r : Nat) :
    ((x.child p).1.token r).parent =
      if r = x.tokens.size then some p else (x.token r).parent := by
  rw [token_child_live h]
  split
  · rfl
  · split <;> rfl

theorem children_child_live (h : x.isCancelled p = false) (r : Nat) :
    ((x.child p).1.token r).children =
      if r = p then (x.token r).children ++ [x.tokens.size] else (x.token r).children := by
  rw [token_child_live h]
  split
  · next heq =>
    rw [if_neg (by rw [heq]; exact Nat.ne_of_gt (lt_size_of_live h)), heq, token_unknown le_rfl]
  · split <;> rfl

theorem WellLinked.child (linked : x.WellLinked) (p : Nat) : (x.child p).1.WellLinked := by
  cases hp : x.isCancelled p with
  | true =>
    have alike : x.Alike (x.child p).1 :=
      { cancelled := fun t => by rw [token_child_cancelled hp]
        parent := fun t => by rw [token_child_cancelled hp]
        children := fun t => by rw [token_child_cancelled hp] }
    exact alike.wellLinked linked
  | false =>
    have hknown : p < x.tokens.size := lt_size_of_live hp
    -- Nothing is the parent of a token that is not made yet.
    have hfresh : ∀ q, x.tokens.size ∉ (x.token q).children := fun q h =>
      absurd (lt_size_of_parent (linked.parents q _ h)) (lt_irrefl _)
    exact
      { older := by
          intro t q h
          rw [parent_child_live hp] at h
          split at h
          · next heq =>
            cases h
            rw [heq]
            exact hknown
          · exact linked.older t q h
        parents := by
          intro q c h
          rw [children_child_live hp] at h
          rw [parent_child_live hp]
          split at h
          · next heq =>
            rcases List.mem_append.mp h with h | h
            · rw [if_neg fun hc => hfresh q (by rwa [hc] at h)]
              exact linked.parents q c h
            · rw [if_pos (List.mem_singleton.mp h), heq]
          · rw [if_neg fun hc => hfresh q (by rwa [hc] at h)]
            exact linked.parents q c h
        distinct := by
          intro q
          rw [children_child_live hp]
          split
          · exact (linked.distinct q).append (List.nodup_singleton _)
              (List.disjoint_singleton.mpr (hfresh q))
          · exact linked.distinct q
        live := by
          intro t q h ht
          rw [parent_child_live hp] at h
          rw [isCancelled_child] at ht ⊢
          split at h
          · cases h
            rw [if_neg (Nat.ne_of_lt hknown)]
            exact hp
          · next hne =>
            have hq := linked.older t q h
            have ht' := lt_size_of_parent h
            rw [if_neg hne] at ht
            rw [if_neg (by omega)]
            exact linked.live t q h ht
        listed := by
          intro t q h hq
          rw [parent_child_live hp] at h
          rw [children_child_live hp]
          split at h
          · next heq =>
            cases h
            rw [if_pos rfl, heq]
            exact List.mem_append_right _ List.mem_cons_self
          · have hold := linked.older t q h
            have ht' := lt_size_of_parent h
            rw [isCancelled_child, if_neg (by omega)] at hq
            have hmem := linked.listed t q h hq
            split
            · exact List.mem_append_left _ hmem
            · exact hmem
        barren := by
          intro t ht
          rw [isCancelled_child] at ht
          rw [children_child_live hp]
          split at ht
          · rw [hp] at ht
            cases ht
          · rw [if_neg fun heq => by rw [heq, hp] at ht; cases ht]
            exact linked.barren t ht }

/-- A new token is below the one it was made under, unless that is cancelled, and nothing else
changes its place. -/
theorem above_child_old (linked : x.WellLinked) (h : r ≠ x.tokens.size) :
    (x.child p).1.Above a r ↔ x.Above a r := by
  have hsame : ∀ {r}, r ≠ x.tokens.size →
      ((x.child p).1.token r).parent = (x.token r).parent := by
    intro r h
    cases hp : x.isCancelled p with
    | true => rw [token_child_cancelled hp]
    | false => rw [parent_child_live hp, if_neg h]
  have hold : ∀ {r q}, (x.token r).parent = some q → q ≠ x.tokens.size := by
    intro r q h
    have hlt := lt_size_of_parent h
    have holder := linked.older r q h
    omega
  constructor <;> intro habove
  · induction habove with
    | self => exact .self
    | under hparent _ ih =>
      rw [hsame h] at hparent
      exact .under hparent (ih (hold hparent))
  · induction habove with
    | self => exact .self
    | under hparent _ ih => exact .under ((hsame h).trans hparent) (ih (hold hparent))

theorem above_child_new (linked : x.WellLinked) (h : x.isCancelled p = false) :
    (x.child p).1.Above a x.tokens.size ↔ a = x.tokens.size ∨ x.Above a p := by
  have hparent : ((x.child p).1.token x.tokens.size).parent = some p := by
    rw [parent_child_live h, if_pos rfl]
  have hold : p ≠ x.tokens.size := Nat.ne_of_lt (lt_size_of_live h)
  constructor
  · intro habove
    cases habove with
    | self => exact .inl rfl
    | under hother habove =>
      rw [hparent] at hother
      cases hother
      exact .inr ((above_child_old linked hold).mp habove)
  · rintro (rfl | habove)
    · exact .self
    · exact .under hparent ((above_child_old linked hold).mpr habove)

/-! ## 2. Leaving the tree -/

theorem swapOut_append (x last : Nat) (list : List Nat) :
    swapOut x (list ++ [last]) = list.map fun y => if y = x then last else y := by
  unfold swapOut
  simp only [List.getLast?_append, List.getLast?_singleton, Option.some_or, List.map_append,
    List.map_singleton, List.dropLast_concat]

theorem swapOut_nil (x : Nat) : swapOut x [] = [] := rfl

theorem mem_swapOut {x y : Nat} {list : List Nat} (hdistinct : list.Nodup)
    (hmem : x ∈ list ∨ list = []) : y ∈ swapOut x list ↔ y ∈ list ∧ y ≠ x := by
  rcases list.eq_nil_or_concat with rfl | ⟨list, last, rfl⟩
  · simp [swapOut_nil]
  · rw [List.concat_eq_append] at hdistinct hmem ⊢
    have hlast : last ∉ list := fun h =>
      (List.nodup_append.mp hdistinct).2.2 last h last List.mem_cons_self rfl
    rw [swapOut_append, List.mem_map]
    have hx : x ∈ list ∨ x = last := by simpa using hmem
    constructor
    · rintro ⟨z, hz, rfl⟩
      split
      · next heq => exact ⟨by simp, fun h => hlast (by rw [h, ← heq]; exact hz)⟩
      · next hne => exact ⟨List.mem_append_left _ hz, hne⟩
    · rintro ⟨hy, hne⟩
      rcases List.mem_append.mp hy with hy | hy
      · exact ⟨y, hy, if_neg hne⟩
      · cases List.mem_singleton.mp hy
        exact ⟨x, hx.resolve_right (Ne.symm hne), if_pos rfl⟩

theorem nodup_swapOut {x : Nat} {list : List Nat} (hdistinct : list.Nodup) :
    (swapOut x list).Nodup := by
  rcases list.eq_nil_or_concat with rfl | ⟨list, last, rfl⟩
  · exact List.nodup_nil
  · rw [List.concat_eq_append] at hdistinct ⊢
    have hlast : last ∉ list := fun h =>
      (List.nodup_append.mp hdistinct).2.2 last h last List.mem_cons_self rfl
    rw [swapOut_append]
    refine (List.nodup_append.mp hdistinct).1.map_on fun y hy z hz h => ?_
    split at h <;> split at h
    · next hy hz => rw [hy, hz]
    · exact absurd hz (by rwa [← h])
    · exact absurd hy (by rwa [h])
    · exact h

/-- What was below `t` has moved up, and `t` is on its own. -/
def lifted (x : Cancellation) (t : Nat) : Cancellation :=
  (x.token t).children.foldl
    (fun y c => y.modify c fun below => { below with parent := (x.token t).parent })
    (x.modify t fun token => { token with parent := none, children := [] })

theorem remove_eq (x : Cancellation) (t : Nat) :
    x.remove t = match (x.token t).parent with
      | none => x.lifted t
      | some p => (x.lifted t).modify p fun above =>
        { above with children := swapOut t (above.children ++ (x.token t).children) } :=
  rfl

@[simp] theorem size_lifted (x : Cancellation) (t : Nat) :
    (x.lifted t).tokens.size = x.tokens.size :=
  (size_foldl_modify (fun _ below => { below with parent := (x.token t).parent }) _ _).trans
    (size_modify _ _ _)

@[simp] theorem size_remove (x : Cancellation) (t : Nat) :
    (x.remove t).tokens.size = x.tokens.size := by
  rw [remove_eq]
  split
  · exact size_lifted x t
  · exact (size_modify _ _ _).trans (size_lifted x t)

theorem WellLinked.not_mem_children (linked : x.WellLinked) (t : Nat) :
    t ∉ (x.token t).children :=
  fun h => absurd (linked.older t t (linked.parents t t h)) (lt_irrefl t)

theorem WellLinked.cancelled_of_parent (linked : x.WellLinked)
    (hparent : (x.token t).parent = some p) (h : x.isCancelled p = true) :
    x.isCancelled t = true := by
  by_contra hlive
  rw [linked.live t p hparent (Bool.eq_false_iff.mpr hlive)] at h
  cases h

theorem token_lifted (linked : x.WellLinked) (t r : Nat) :
    (x.lifted t).token r =
      if r = t then { x.token r with parent := none, children := [] }
      else if r ∈ (x.token t).children then { x.token r with parent := (x.token t).parent }
      else x.token r := by
  refine (token_foldl_modify (fun _ below => { below with parent := (x.token t).parent })
    (fun _ _ => rfl) _ _ r).trans ?_
  rw [size_modify, token_modify]
  by_cases hchild : r ∈ (x.token t).children
  · have hne : r ≠ t := fun h => linked.not_mem_children t (by rwa [h] at hchild)
    have hlt := lt_size_of_parent (linked.parents t r hchild)
    rw [if_pos ⟨hchild, hlt⟩, if_neg fun h => hne h.1, if_neg hne, if_pos hchild]
  · rw [if_neg fun h => hchild h.1, if_neg hchild]
    by_cases hlt : r < x.tokens.size
    · simp only [hlt, and_true]
    · rw [if_neg fun h => hlt h.2, token_unknown (not_lt.mp hlt), ite_self]

/-- Only the children are not yet as they will be. -/
theorem token_remove (x : Cancellation) (t r : Nat) :
    ∃ children, (x.remove t).token r = { (x.lifted t).token r with children } := by
  rw [remove_eq]
  split
  · exact ⟨_, rfl⟩
  · rw [token_modify]
    split <;> exact ⟨_, rfl⟩

/-- Leaving the tree changes nothing but places. -/
theorem isCancelled_remove (linked : x.WellLinked) (t r : Nat) :
    (x.remove t).isCancelled r = x.isCancelled r := by
  obtain ⟨children, h⟩ := x.token_remove t r
  unfold isCancelled
  rw [h]
  simp only [token_lifted linked]
  split
  · rfl
  · split <;> rfl

theorem holders_remove (linked : x.WellLinked) (t r : Nat) :
    ((x.remove t).token r).holders = (x.token r).holders := by
  obtain ⟨children, h⟩ := x.token_remove t r
  rw [h]
  simp only [token_lifted linked]
  split
  · rfl
  · split <;> rfl

theorem parent_remove (linked : x.WellLinked) (t r : Nat) :
    ((x.remove t).token r).parent =
      if r = t then none
      else if r ∈ (x.token t).children then (x.token t).parent
      else (x.token r).parent := by
  obtain ⟨children, h⟩ := x.token_remove t r
  rw [h]
  simp only [token_lifted linked]
  split
  · rfl
  · split <;> rfl

theorem children_remove (linked : x.WellLinked) (t r : Nat) :
    ((x.remove t).token r).children =
      if r = t then []
      else if (x.token t).parent = some r then
        swapOut t ((x.token r).children ++ (x.token t).children)
      else (x.token r).children := by
  have hlifted : ((x.lifted t).token r).children =
      if r = t then [] else (x.token r).children := by
    rw [token_lifted linked]
    split
    · rfl
    · split <;> rfl
  rw [remove_eq]
  split
  · next hroot =>
    rw [hlifted, hroot, if_neg (by simp : ¬ (none : Option Nat) = some r)]
  · next p hparent =>
    have hlt : p < t := linked.older t p hparent
    have hknown := lt_size_of_parent hparent
    rw [token_modify, hparent, size_lifted]
    by_cases heq : r = p
    · subst heq
      rw [if_pos ⟨rfl, by omega⟩, if_neg (Nat.ne_of_lt hlt), if_pos rfl]
      simp only
      rw [hlifted, if_neg (Nat.ne_of_lt hlt)]
    · rw [if_neg fun h => heq h.1, hlifted, if_neg fun h => heq (Option.some.inj h).symm]

theorem WellLinked.distinct_swapped (linked : x.WellLinked)
    (hparent : (x.token t).parent = some p) :
    ((x.token p).children ++ (x.token t).children).Nodup := by
  refine (linked.distinct p).append (linked.distinct t) fun c hp ht => ?_
  have hup := linked.parents p c hp
  rw [linked.parents t c ht] at hup
  exact absurd (Option.some.inj hup).symm (Nat.ne_of_lt (linked.older t p hparent))

/-- The children of the parent of a token that leaves: its own and those that move up. -/
theorem WellLinked.mem_swapped (linked : x.WellLinked) (hparent : (x.token t).parent = some p)
    {c : Nat} :
    c ∈ swapOut t ((x.token p).children ++ (x.token t).children) ↔
      (c ∈ (x.token p).children ∨ c ∈ (x.token t).children) ∧ c ≠ t := by
  have hmem : t ∈ (x.token p).children ++ (x.token t).children ∨
      (x.token p).children ++ (x.token t).children = [] := by
    cases hp : x.isCancelled p with
    | false => exact .inl (List.mem_append_left _ (linked.listed t p hparent hp))
    | true =>
      -- A cancelled parent need not list the token, but then neither has any children.
      have ht := linked.cancelled_of_parent hparent hp
      exact .inr (by rw [linked.barren p hp, linked.barren t ht]; rfl)
  rw [mem_swapOut (linked.distinct_swapped hparent) hmem, List.mem_append]

theorem WellLinked.remove (linked : x.WellLinked) (t : Nat) : (x.remove t).WellLinked where
  older r p h := by
    rw [parent_remove linked] at h
    split at h
    · cases h
    · split at h
      · next hchild =>
        exact lt_trans (linked.older t p h) (linked.older r t (linked.parents t r hchild))
      · exact linked.older r p h
  parents p c hc := by
    rw [children_remove linked] at hc
    rw [parent_remove linked]
    split at hc
    · exact absurd hc List.not_mem_nil
    · next hp =>
      split at hc
      · next hparent =>
        obtain ⟨hc, hne⟩ := (linked.mem_swapped hparent).mp hc
        rw [if_neg hne]
        split
        · exact hparent
        · next hchild => exact linked.parents p c (hc.resolve_right hchild)
      · next hparent =>
        have hup := linked.parents p c hc
        rw [if_neg fun h => hparent (by rwa [h] at hup), if_neg fun h => hp ?_]
        · exact hup
        · have hother := linked.parents t c h
          rw [hup] at hother
          exact Option.some.inj hother
  distinct p := by
    rw [children_remove linked]
    split
    · exact List.nodup_nil
    · split
      · next hparent => exact nodup_swapOut (linked.distinct_swapped hparent)
      · exact linked.distinct p
  live r p h hr := by
    rw [isCancelled_remove linked] at hr ⊢
    rw [parent_remove linked] at h
    split at h
    · cases h
    · split at h
      · next hchild =>
        exact linked.live t p h (linked.live r t (linked.parents t r hchild) hr)
      · exact linked.live r p h hr
  listed r p h hp := by
    rw [isCancelled_remove linked] at hp
    rw [parent_remove linked] at h
    rw [children_remove linked]
    split at h
    · cases h
    · next hr =>
      split at h
      · next hchild =>
        rw [if_neg (Nat.ne_of_lt (linked.older t p h)), if_pos h]
        exact (linked.mem_swapped h).mpr ⟨.inr hchild, hr⟩
      · next hchild =>
        have hmem := linked.listed r p h hp
        rw [if_neg fun heq => hchild (by rwa [heq] at hmem)]
        split
        · next hparent => exact (linked.mem_swapped hparent).mpr ⟨.inl hmem, hr⟩
        · exact hmem
  barren r hr := by
    rw [isCancelled_remove linked] at hr
    rw [children_remove linked]
    split
    · rfl
    · split
      · next hparent =>
        rw [linked.barren r hr, linked.barren t (linked.cancelled_of_parent hparent hr)]
        rfl
      · exact linked.barren r hr

/-- A token that leaves is taken out between what is above it and what is below it. -/
theorem above_remove (linked : x.WellLinked) (hr : x.isCancelled r = false) (hrt : r ≠ t)
    (hat : a ≠ t) : (x.remove t).Above a r ↔ x.Above a r := by
  have hparent : ∀ {r}, r ≠ t → ((x.remove t).token r).parent =
      if r ∈ (x.token t).children then (x.token t).parent else (x.token r).parent := by
    intro r h
    rw [parent_remove linked, if_neg h]
  constructor <;> intro habove
  · induction habove with
    | self => exact .self
    | under hup _ ih =>
      rw [hparent hrt] at hup
      split at hup
      · next hchild =>
        have hrise := linked.parents t _ hchild
        have ht := linked.live _ t hrise hr
        exact .trans (ih (linked.live t _ hup ht) (Nat.ne_of_lt (linked.older t _ hup)))
          (.under hrise (.under hup .self))
      · next hchild =>
        have hp := linked.live _ _ hup hr
        refine .under hup (ih hp fun heq => hchild ?_)
        rw [← heq]
        exact linked.listed _ _ hup hp
  · -- Where the way up comes by the token that leaves, it goes on from the parent of that.
    suffices h : (r ≠ t → (x.remove t).Above a r) ∧
        (r = t → ∃ p, (x.token t).parent = some p ∧ (x.remove t).Above a p) from h.1 hrt
    clear hrt
    induction habove with
    | self => exact ⟨fun _ => .self, fun h => absurd h hat⟩
    | @under q r hup _ ih =>
      obtain ⟨hstay, hleave⟩ := ih (linked.live r q hup hr)
      constructor
      · intro hrt
        by_cases hqt : q = t
        · obtain ⟨p, hp, habove⟩ := hleave hqt
          rw [hqt] at hup
          refine .under ?_ habove
          rw [hparent hrt, if_pos (linked.listed r t hup (linked.live r t hup hr))]
          exact hp
        · refine .under ?_ (hstay hqt)
          rw [hparent hrt, if_neg fun h => hqt ?_]
          · exact hup
          · have hother := linked.parents t r h
            rw [hup] at hother
            exact Option.some.inj hother
      · rintro rfl
        exact ⟨q, hup, hstay (Nat.ne_of_lt (linked.older r q hup))⟩

/-! ## 3. Holding -/

/-- Whether somebody holds a token. -/
def IsHeld (x : Cancellation) (t : Nat) : Prop := t < x.tokens.size ∧ 0 < (x.token t).holders

instance (x : Cancellation) (t : Nat) : Decidable (x.IsHeld t) :=
  inferInstanceAs (Decidable (t < x.tokens.size ∧ 0 < (x.token t).holders))

theorem alike_holders (x : Cancellation) (t : Nat) (f : Nat → Nat) :
    x.Alike (x.modify t fun token => { token with holders := f token.holders }) where
  cancelled r := by
    rw [token_modify]
    split <;> rfl
  parent r := by
    rw [token_modify]
    split <;> rfl
  children r := by
    rw [token_modify]
    split <;> rfl

theorem isHeld_cancel (linked : x.WellLinked) : (x.cancel t).1.IsHeld r ↔ x.IsHeld r := by
  unfold IsHeld
  rw [size_cancel, holders_cancel linked]

theorem isHeld_child : (x.child p).1.IsHeld r ↔ x.IsHeld r ∨ r = x.tokens.size := by
  unfold IsHeld
  rw [size_child, holders_child]
  constructor
  · rintro ⟨hlt, hheld⟩
    rcases Nat.lt_succ_iff_lt_or_eq.mp hlt with h | h
    · exact .inl ⟨h, hheld⟩
    · exact .inr h
  · rintro (⟨hlt, hheld⟩ | rfl)
    · exact ⟨Nat.lt_succ_of_lt hlt, hheld⟩
    · rw [token_unknown le_rfl]
      exact ⟨Nat.lt_succ_self _, Nat.one_pos⟩

theorem alike_retain (x : Cancellation) (t : Nat) : x.Alike (x.retain t) :=
  x.alike_holders t (· + 1)

theorem isHeld_retain (h : x.IsHeld t) : (x.retain t).IsHeld r ↔ x.IsHeld r := by
  unfold IsHeld retain
  rw [size_modify, token_modify]
  split
  · next hr =>
    refine and_congr_right fun _ => iff_of_true (Nat.succ_pos _) ?_
    rw [hr.1]
    exact h.2
  · rfl

/-- The tree after one less holds `t`, which did not yet leave it. -/
def spent (x : Cancellation) (t : Nat) : Cancellation :=
  x.modify t fun token => { token with holders := (x.token t).holders - 1 }

theorem alike_spent (x : Cancellation) (t : Nat) : x.Alike (x.spent t) :=
  x.alike_holders t fun _ => (x.token t).holders - 1

theorem holders_spent (x : Cancellation) (t r : Nat) :
    ((x.spent t).token r).holders =
      if r = t ∧ r < x.tokens.size then (x.token r).holders - 1 else (x.token r).holders := by
  unfold spent
  rw [token_modify]
  split
  · next h => rw [h.1]
  · rfl

theorem release_eq (x : Cancellation) (t : Nat) :
    x.release t =
      if (x.token t).holders - 1 = 0 then (x.spent t).remove t else x.spent t :=
  rfl

theorem isCancelled_release (linked : x.WellLinked) (t r : Nat) :
    (x.release t).isCancelled r = x.isCancelled r := by
  have alike := x.alike_spent t
  rw [release_eq]
  split
  · rw [isCancelled_remove (alike.wellLinked linked), alike.isCancelled]
  · exact alike.isCancelled r

theorem WellLinked.release (linked : x.WellLinked) (t : Nat) : (x.release t).WellLinked := by
  have spent := (x.alike_spent t).wellLinked linked
  rw [release_eq]
  split
  · exact spent.remove t
  · exact spent

theorem size_release (x : Cancellation) (t : Nat) :
    (x.release t).tokens.size = x.tokens.size := by
  rw [release_eq]
  split
  · exact (size_remove _ _).trans (size_modify _ _ _)
  · exact size_modify _ _ _

theorem holders_release (linked : x.WellLinked) (t r : Nat) :
    ((x.release t).token r).holders =
      if r = t ∧ r < x.tokens.size then (x.token r).holders - 1 else (x.token r).holders := by
  rw [release_eq, ← holders_spent]
  split
  · exact holders_remove ((x.alike_spent t).wellLinked linked) t r
  · rfl

theorem isHeld_of_release (linked : x.WellLinked) (h : (x.release t).IsHeld r) : x.IsHeld r := by
  unfold IsHeld at h ⊢
  rw [size_release, holders_release linked] at h
  refine ⟨h.1, ?_⟩
  split at h
  · exact lt_of_lt_of_le h.2 (Nat.sub_le _ _)
  · exact h.2

/-- What is still held stays below what is still held. -/
theorem above_release (linked : x.WellLinked) (hlive : x.isCancelled r = false)
    (hr : (x.release t).IsHeld r) (ha : (x.release t).IsHeld a) :
    (x.release t).Above a r ↔ x.Above a r := by
  have alike := x.alike_spent t
  -- What is still held is not the one that leaves.
  have hother : (x.token t).holders - 1 = 0 → ∀ {r}, (x.release t).IsHeld r → r ≠ t := by
    rintro hlast r ⟨hlt, hheld⟩ rfl
    rw [size_release] at hlt
    rw [holders_release linked, if_pos ⟨rfl, hlt⟩, hlast] at hheld
    exact absurd hheld (lt_irrefl 0)
  by_cases hlast : (x.token t).holders - 1 = 0
  · rw [release_eq, if_pos hlast, above_remove (alike.wellLinked linked)
      (by rwa [alike.isCancelled]) (hother hlast hr) (hother hlast ha), alike.above_iff]
  · rw [release_eq, if_neg hlast, alike.above_iff]

end Cancellation

end Sequencer
