import Sequencer.Proofs.Json.Texts
import Sequencer.Sample.Wire

/-!
# Wire form — samples written and read back

The text of a sample is cut into the tokens of its key, its payload and its time.  The reader takes
them field by field, so each field has a lemma of its own: what was read before it stays, and what
it tells is added.
-/

namespace Sequencer

namespace Sample

open Json (Token Lexes EndsNumber)

/-! ## 1. From the text to the tokens -/

/-- The tokens of a time after its first brace, in front of others. -/
def spelledMoment (moment : Duration) (rest : List Token) : List Token :=
  .text (some "secs_since_epoch") :: .colon :: .number (some (.int moment.seconds)) ::
    .comma :: .text (some "nanos_since_epoch") :: .colon ::
    .number (some (.int moment.subsecond)) :: .closeObject :: rest

/-- The tokens of a sample that was produced `moment` after the epoch, after its first brace. -/
def spelled (key : String) (value : Json) (moment : Duration) : List Token :=
  .text (some "key") :: .colon :: .text (some key) ::
    .comma :: .text (some "value") :: .colon :: (value.spelled ++
    .comma :: .text (some "at") :: .colon :: .openObject :: spelledMoment moment [.closeObject])

/-- The text of a sample that was produced `moment` after the epoch. -/
def written (key : String) (value : Json) (moment : Duration) : String :=
  "\x7b\"key\":" ++ Json.writeText key ++ ",\"value\":" ++ value.write ++
    ",\"at\":\x7b\"secs_since_epoch\":" ++ toString moment.seconds ++
    ",\"nanos_since_epoch\":" ++ toString moment.subsecond ++ "\x7d\x7d"

theorem write_eq_written {sample : Sample} (h : 0 ≤ sample.stamp) :
    sample.write = .ok (written sample.key sample.value ⟨sample.stamp.toNat⟩) := by
  rw [write, if_neg (Int.not_lt.mpr h)]
  rfl

theorem lt_perSecond_subsecond (moment : Duration) : moment.subsecond < Duration.perSecond :=
  Nat.mod_lt _ (by decide)

theorem tokens_written (key : String) {value : Json} {moment : Duration} (hplain : value.Plain)
    (hseconds : moment.seconds ≤ maxWord 64) :
    Json.tokens (written key value moment) = .openObject :: spelled key value moment := by
  have hnanos : moment.subsecond ≤ maxWord 64 :=
    (Nat.le_of_lt (lt_perSecond_subsecond moment)).trans (by decide)
  -- the text from its marks, its names and its values
  have hkey : "\x7b\"key\":" = "\x7b" ++ Json.writeText "key" ++ ":" := rfl
  have hvalue : ",\"value\":" = "," ++ Json.writeText "value" ++ ":" := rfl
  have hat : ",\"at\":\x7b\"secs_since_epoch\":" =
      "," ++ Json.writeText "at" ++ ":" ++ "\x7b" ++ Json.writeText "secs_since_epoch" ++ ":" := rfl
  have hsub : ",\"nanos_since_epoch\":" = "," ++ Json.writeText "nanos_since_epoch" ++ ":" := rfl
  have hend : "\x7d\x7d" = "\x7d" ++ "\x7d" := rfl
  apply Lexes.tokens_eq
  rw [written, hkey, hvalue, hat, hsub, hend]
  simp only [String.toList_append, List.append_assoc]
  -- from the last brace to the first one
  have hclosed : Lexes ("\x7d".toList ++ "\x7d".toList) [.closeObject, .closeObject] := by
    have hlast := Lexes.mark "\x7d" rfl Lexes.nil
    rw [List.append_nil] at hlast
    exact Lexes.mark _ rfl hlast
  have hsubsecond := Lexes.mark "," rfl (Lexes.name "nanos_since_epoch"
    (Lexes.nat hnanos (EndsNumber.closeObject _) hclosed))
  have hmoment := Lexes.mark "\x7b" rfl (Lexes.name "secs_since_epoch"
    (Lexes.nat hseconds (EndsNumber.comma _) hsubsecond))
  have hstamp := Lexes.mark "," rfl (Lexes.name "at" hmoment)
  have hpayload := Json.lexes_write value hplain (EndsNumber.comma _) hstamp
  exact Lexes.mark _ rfl (Lexes.name "key" (Lexes.text key (Lexes.mark _ rfl
    (Lexes.name "value" hpayload))))

/-! ## 2. From the tokens to the time -/

theorem readNat_of_le (name : String) {n greatest : Nat} (h : n ≤ greatest) (rest : List Token) :
    readNat name greatest (.number (some (.int n)) :: rest) = .ok (n, rest) := by
  rw [readNat, if_pos ⟨Int.natCast_nonneg n, Int.ofNat_le.mpr h⟩, Int.toNat_natCast]

theorem readMoment_seconds {fuel n : Nat} {nanos : Option Nat} {first : Bool}
    {tokens rest : List Token} (hn : n ≤ maxWord 64)
    (hnext : Json.nextField first tokens =
      .ok (.piece ("secs_since_epoch", .colon :: .number (some (.int n)) :: rest))) :
    readMoment (fuel + 1) first none nanos tokens = readMoment fuel false (some n) nanos rest := by
  rw [readMoment, hnext]
  show (readSeconds (.number (some (.int n)) :: rest) >>= fun read =>
    readMoment fuel false (some read.1) nanos read.2) = _
  rw [readSeconds, readNat_of_le _ hn]
  rfl

theorem readMoment_nanos {fuel n : Nat} {seconds : Option Nat} {first : Bool}
    {tokens rest : List Token} (hn : n ≤ maxWord 32)
    (hnext : Json.nextField first tokens =
      .ok (.piece ("nanos_since_epoch", .colon :: .number (some (.int n)) :: rest))) :
    readMoment (fuel + 1) first seconds none tokens =
      readMoment fuel false seconds (some n) rest := by
  rw [readMoment, hnext]
  show (readNanos (.number (some (.int n)) :: rest) >>= fun read =>
    readMoment fuel false seconds (some read.1) read.2) = _
  rw [readNanos, readNat_of_le _ hn]
  rfl

theorem offsetOf_parts {moment : Duration} (h : moment.seconds ≤ maxWord 64) :
    offsetOf moment.seconds moment.subsecond = .ok moment := by
  have hnone : moment.subsecond / Duration.perSecond = 0 :=
    Nat.div_eq_of_lt (lt_perSecond_subsecond moment)
  have hparts : Duration.ofParts moment.seconds moment.subsecond = moment := by
    rw [Duration.ofParts, Duration.seconds, Duration.subsecond, Nat.div_add_mod']
  have hword : maxWord 64 < wordSize 64 := by decide
  rw [offsetOf, hnone, if_neg (by omega), hparts]

theorem stampOf_moment {moment : Duration} (h : (moment.seconds : Int) ≤ lastSecond) :
    stampOf moment false = some (moment.nanoseconds : Int) := by
  have hleast : -(wordSize 63 : Int) ≤ 0 := by decide
  have hsecond : (moment.nanoseconds : Int) / Duration.perSecond = moment.seconds := rfl
  simp only [stampOf, Bool.false_eq_true, if_false, hsecond]
  exact if_pos ⟨hleast.trans (Int.natCast_nonneg _), h⟩

theorem readStamp_spelledMoment {moment : Duration} (h : (moment.seconds : Int) ≤ lastSecond)
    (rest : List Token) :
    readStamp (.openObject :: spelledMoment moment rest) = .ok (moment.nanoseconds, rest) := by
  have hword : lastSecond ≤ (maxWord 64 : Nat) := by decide
  have hseconds : moment.seconds ≤ maxWord 64 := Int.ofNat_le.mp (h.trans hword)
  have hnanos : moment.subsecond ≤ maxWord 32 :=
    (Nat.le_of_lt (lt_perSecond_subsecond moment)).trans (by decide)
  have hmoment : ∀ fuel, readMoment (fuel + 3) true none none (spelledMoment moment rest) =
      .ok (moment, rest) := by
    intro fuel
    rw [spelledMoment, readMoment_seconds hseconds rfl, readMoment_nanos hnanos rfl, readMoment]
    show (offsetOf moment.seconds moment.subsecond >>= fun offset => pure (offset, rest)) = _
    rw [offsetOf_parts hseconds]
    rfl
  have hread : readMoment ((spelledMoment moment rest).length + 1) true none none
      (spelledMoment moment rest) = .ok (moment, rest) := hmoment (rest.length + 6)
  simp only [readStamp, hread, bind, Except.bind, stampOf_moment h, pure, Except.pure]

/-! ## 3. From the tokens to the sample -/

theorem readPayload_spelled {value : Json} (hplain : value.Plain)
    (hnesting : value.nesting < Json.nestingLimit - 1) (rest : List Token) :
    readPayload (value.spelled ++ rest) = .ok (value, rest) := by
  have hfuel : 2 * value.spelled.length ≤ Json.enough (value.spelled ++ rest) := by
    rw [Json.enough, List.length_append]
    omega
  rw [readPayload, Json.readValue_spelled value _ _ rest hplain hnesting hfuel]
  rfl

theorem readFields_key {fuel : Nat} {first : Bool} {key : String} {value : Option Json}
    {stamp : Option Int} {tokens rest : List Token}
    (hnext : Json.nextField first tokens =
      .ok (.piece ("key", .colon :: .text (some key) :: rest))) :
    readFields (fuel + 1) first none value stamp tokens =
      readFields fuel false (some key) value stamp rest := by
  rw [readFields, hnext]
  rfl

theorem readFields_value {fuel : Nat} {first : Bool} {key : Option String} {value : Json}
    {stamp : Option Int} {tokens start rest : List Token}
    (hnext : Json.nextField first tokens = .ok (.piece ("value", .colon :: start)))
    (hread : readPayload start = .ok (value, rest)) :
    readFields (fuel + 1) first key none stamp tokens =
      readFields fuel false key (some value) stamp rest := by
  rw [readFields, hnext]
  show (readPayload start >>= fun read =>
    readFields fuel false key (some read.1) stamp read.2) = _
  rw [hread]
  rfl

theorem readFields_at {fuel : Nat} {first : Bool} {key : Option String} {value : Option Json}
    {stamp : Int} {tokens start rest : List Token}
    (hnext : Json.nextField first tokens = .ok (.piece ("at", .colon :: start)))
    (hread : readStamp start = .ok (stamp, rest)) :
    readFields (fuel + 1) first key value none tokens =
      readFields fuel false key value (some stamp) rest := by
  rw [readFields, hnext]
  show (readStamp start >>= fun read =>
    readFields fuel false key value (some read.1) read.2) = _
  rw [hread]
  rfl

theorem readTokens_spelled (key : String) {value : Json} {moment : Duration} (hplain : value.Plain)
    (hnesting : value.nesting < Json.nestingLimit - 1)
    (hseconds : (moment.seconds : Int) ≤ lastSecond) :
    readTokens (.openObject :: spelled key value moment) =
      .ok (⟨key, value, moment.nanoseconds⟩, []) := by
  have hpayload := readPayload_spelled hplain hnesting
    (.comma :: .text (some "at") :: .colon :: .openObject :: spelledMoment moment [.closeObject])
  have hfields : ∀ fuel, readFields (fuel + 4) true none none none (spelled key value moment) =
      .ok (⟨key, value, moment.nanoseconds⟩, []) := by
    intro fuel
    rw [spelled, readFields_key rfl, readFields_value rfl hpayload,
      readFields_at rfl (readStamp_spelledMoment hseconds [.closeObject])]
    rfl
  obtain ⟨fuel, hfuel⟩ : ∃ fuel, (spelled key value moment).length + 1 = fuel + 4 := by
    refine ⟨(spelled key value moment).length - 3, ?_⟩
    rw [spelled, List.length_cons, List.length_cons, List.length_cons]
    omega
  rw [readTokens, hfuel, hfields]

end Sample

/-- A sample that is not older than the epoch survives its text, whatever its key: a payload with
whole numbers that fit 64 bits and with at most 126 levels of lists and objects comes back as it
was, and so do the key and the time to the nanosecond.  The clock only leaves out times that no
sample has: seconds are counted in 64 bits with a sign. -/
theorem samples_survive_their_text (sample : Sample) (hepoch : 0 ≤ sample.stamp)
    (hclock : sample.stamp / Duration.perSecond ≤ lastSecond) (hplain : sample.value.Plain)
    (hnesting : sample.value.nesting ≤ 126) :
    ∃ text, sample.write = .ok text ∧ Sample.read text = .ok sample := by
  obtain ⟨key, value, stamp⟩ := sample
  obtain ⟨nanoseconds, rfl⟩ := Int.eq_ofNat_of_zero_le hepoch
  have hword : lastSecond ≤ (maxWord 64 : Nat) := by decide
  have hseconds : Duration.seconds ⟨nanoseconds⟩ ≤ maxWord 64 :=
    Int.ofNat_le.mp (hclock.trans hword)
  refine ⟨Sample.written key value ⟨nanoseconds⟩, Sample.write_eq_written hepoch, ?_⟩
  rw [Sample.read, Sample.tokens_written key hplain hseconds,
    Sample.readTokens_spelled key hplain (Nat.lt_succ_of_le hnesting) hclock]

theorem samples_survive_their_text_quoted :
    ∃ text,
      Sample.write ⟨"tel\n\"α\\\x07", .object [("", .array [.array [], .object []]),
        ("\t", .array [.int (-9223372036854775808), .int 18446744073709551615, .null]),
        ("é", .object [("a", .bool true), ("b", .string "\x1f/\\u0041")])],
        1754500000123456789⟩ = .ok text ∧
      Sample.read text =
        .ok ⟨"tel\n\"α\\\x07", .object [("", .array [.array [], .object []]),
          ("\t", .array [.int (-9223372036854775808), .int 18446744073709551615, .null]),
          ("é", .object [("a", .bool true), ("b", .string "\x1f/\\u0041")])],
          1754500000123456789⟩ :=
  samples_survive_their_text _ (by decide) (by decide) (by decide) (by decide)

end Sequencer
