import Sequencer.Ring

/-!
# Broadcasts — a ring beside the log of everything that was sent

A ring keeps the newest messages of its log and counts the others.  What a receiver finds is read
off the log: the message at its position, or at the oldest position that is kept if it fell behind.
-/

namespace Sequencer.Ring

variable {α : Type} {ring : Ring α} {log : List α}

/-- The ring has sent the log and keeps the newest messages of it. -/
structure Keeps (ring : Ring α) (log : List α) : Prop where
  slots : 0 < ring.slots
  sent : ring.sent = log.length
  kept : ring.kept = log.drop (log.length - ring.slots)

theorem keeps_ofCapacity (capacity : Nat) : (ofCapacity (α := α) capacity).Keeps [] where
  slots := Nat.pos_of_isPowerOfTwo (Nat.isPowerOfTwo_nextPowerOfTwo capacity)
  sent := rfl
  kept := List.drop_nil.symm

theorem keeps_send (keeps : ring.Keeps log) (message : α) :
    (ring.send message).Keeps (log ++ [message]) where
  slots := keeps.slots
  sent := by
    show ring.sent + 1 = (log ++ [message]).length
    rw [keeps.sent, List.length_append, List.length_singleton]
  kept := by
    have hslots := keeps.slots
    have hlength :
        (ring.kept ++ [message]).length = log.length - (log.length - ring.slots) + 1 := by
      rw [List.length_append, List.length_singleton, keeps.kept, List.length_drop]
    show (if ring.slots < (ring.kept ++ [message]).length then (ring.kept ++ [message]).drop 1
      else ring.kept ++ [message]) =
        (log ++ [message]).drop ((log ++ [message]).length - ring.slots)
    rw [hlength, List.length_append, List.length_singleton]
    split
    · next hfull =>
      -- A full ring lets its oldest message go.
      have hone : 1 ≤ (log.drop (log.length - ring.slots)).length := by
        rw [List.length_drop]
        omega
      rw [keeps.kept, List.drop_append_of_le_length hone, List.drop_drop,
        List.drop_append_of_le_length (by omega)]
      congr 2
      omega
    · next hroom =>
      have hall : log.length - ring.slots = 0 := by omega
      have hall' : log.length + 1 - ring.slots = 0 := by omega
      rw [keeps.kept, hall, hall', List.drop_zero, List.drop_zero]

theorem oldest_of_keeps (keeps : ring.Keeps log) : ring.oldest = log.length - ring.slots := by
  have hlength : ring.kept.length = log.length - (log.length - ring.slots) := by
    rw [keeps.kept, List.length_drop]
  show ring.sent - ring.kept.length = log.length - ring.slots
  rw [keeps.sent, hlength]
  omega

theorem receive_of_keeps (keeps : ring.Keeps log) (cursor : Nat) :
    ring.receive cursor =
      if cursor < log.length - ring.slots then
        .lagged (log.length - ring.slots - cursor) (log.length - ring.slots)
      else match log[cursor]? with
        | some message => .message message (cursor + 1)
        | none => .empty := by
  unfold receive
  rw [oldest_of_keeps keeps]
  split
  · rfl
  · next hkept =>
    have hindex : log.length - ring.slots + (cursor - (log.length - ring.slots)) = cursor := by
      omega
    have hplace : ring.kept[cursor - (log.length - ring.slots)]? = log[cursor]? := by
      rw [keeps.kept, List.getElem?_drop, hindex]
    cases hfound : log[cursor]? with
    | none => simp only [hplace, hfound]
    | some message => simp only [hplace, hfound]

/-- A receiver that fell behind goes on with the oldest message that is kept. -/
theorem next_of_keeps (keeps : ring.Keeps log) (cursor : Nat) :
    ring.next cursor =
      (log[max cursor (log.length - ring.slots)]?).map
        fun message => (message, max cursor (log.length - ring.slots) + 1) := by
  have hslots := keeps.slots
  unfold next
  rw [receive_of_keeps keeps]
  by_cases hbehind : cursor < log.length - ring.slots
  · rw [if_pos hbehind, Nat.max_eq_right (by omega)]
    simp only
    rw [receive_of_keeps keeps, if_neg (Nat.lt_irrefl _)]
    cases log[log.length - ring.slots]? <;> rfl
  · rw [if_neg hbehind, Nat.max_eq_left (by omega)]
    cases log[cursor]? <;> rfl

end Sequencer.Ring
