/-!
# Words — how many values fit a number of bits
-/

namespace Sequencer

/-- The number of values of a word of `bits` bits: an unsigned word is below it, and a signed word
of one more bit is below it too and not below its negation. -/
abbrev wordSize (bits : Nat) : Nat := Nat.pow 2 bits

/-- The greatest unsigned word of `bits` bits. -/
abbrev maxWord (bits : Nat) : Nat := wordSize bits - 1

end Sequencer
