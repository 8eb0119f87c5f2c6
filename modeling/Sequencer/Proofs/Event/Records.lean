import Mathlib.Algebra.GroupWithZero.Nat
import Mathlib.Data.List.Basic
import Sequencer.Event.Line

/-!
# Records — what an event can print

A text between quotes shows no hidden character, whatever it holds: each is written by its short
name or by its code point.  So a record shows only those hidden characters that are in a text which
is printed without quotes, and is a single line unless such a text breaks it.
-/

namespace Sequencer

namespace Text

/-! ## 1. Hidden characters -/

/-- The hidden characters of a text, in order. -/
def hidden (s : String) : List Char := s.toList.filter isHidden

/-- A text without hidden characters. -/
def isShown (s : String) : Bool := s.toList.all fun c => !isHidden c

theorem hidden_of_isShown {s : String} (h : isShown s = true) : hidden s = [] := by
  refine List.filter_eq_nil_iff.mpr fun c hc hhidden => ?_
  have hshown := List.all_eq_true.mp h c hc
  rw [hhidden] at hshown
  cases hshown

theorem hidden_append (s t : String) : hidden (s ++ t) = hidden s ++ hidden t := by
  unfold hidden
  rw [String.toList_append, List.filter_append]

theorem hidden_separated {separator : String} (h : isShown separator = true)
    (items : List String) : hidden (separated separator items) = items.flatMap hidden := by
  fun_induction separated separator items with
  | case1 => rfl
  | case2 item => rw [List.flatMap_singleton]
  | case3 item rest _ ih =>
    rw [hidden_append, hidden_append, hidden_of_isShown h, ih, List.append_nil, List.flatMap_cons]

theorem mem_toDigits {b n : Nat} {c : Char} (hb : 1 < b) (h : c ∈ Nat.toDigits b n) :
    ∃ digit, digit < b ∧ c = digit.digitChar := by
  induction n using Nat.strongRecOn with
  | ind n ih =>
    rw [Nat.toDigits_eq_if hb] at h
    split at h
    · next hlt => exact ⟨n, hlt, List.mem_singleton.mp h⟩
    · next hle =>
      rcases List.mem_append.mp h with hmore | hlast
      · exact ih (n / b) (Nat.div_lt_self (by omega) hb) hmore
      · exact ⟨n % b, Nat.mod_lt _ (by omega), List.mem_singleton.mp hlast⟩

theorem isHidden_digitChar {digit : Nat} (h : digit < 16) : isHidden digit.digitChar = false := by
  revert digit
  decide

theorem isHidden_of_mem_toDigits {b n : Nat} {c : Char} (hb : 1 < b) (hle : b ≤ 16)
    (h : c ∈ Nat.toDigits b n) : isHidden c = false := by
  obtain ⟨digit, hlt, rfl⟩ := mem_toDigits hb h
  exact isHidden_digitChar (Nat.lt_of_lt_of_le hlt hle)

/-- What stands for a character between quotes can be seen. -/
theorem isHidden_of_mem_quoteChar {c x : Char} (h : x ∈ quoteChar c) : isHidden x = false := by
  have hnames : ∀ name : Char, isHidden name = false → x ∈ ['\\', name] → isHidden x = false := by
    rintro name hname hx
    rcases List.mem_cons.mp hx with rfl | hx
    · rfl
    · rw [List.mem_singleton.mp hx]
      exact hname
  have hmarks : ['\\', 'u', '\x7b'].filter isHidden = [] := rfl
  unfold quoteChar at h
  split at h
  · exact hnames _ rfl h
  split at h
  · exact hnames _ rfl h
  split at h
  · exact hnames _ rfl h
  split at h
  · exact hnames _ rfl h
  split at h
  · exact hnames _ rfl h
  split at h
  · exact hnames _ rfl h
  split at h
  · unfold codePoint at h
    rcases List.mem_append.mp h with hopening | hbrace
    · rcases List.mem_append.mp hopening with hmark | hdigit
      · exact Bool.eq_false_iff.mpr (List.filter_eq_nil_iff.mp hmarks x hmark)
      · exact isHidden_of_mem_toDigits (by decide) (Nat.le_refl 16) hdigit
    · rw [List.mem_singleton.mp hbrace]
      rfl
  · next hshown =>
    rw [List.mem_singleton.mp h]
    exact Bool.eq_false_iff.mpr hshown

theorem hidden_quote (s : String) : hidden (quote s) = [] := by
  refine List.filter_eq_nil_iff.mpr fun x hx => Bool.eq_false_iff.mp ?_
  rw [quote, String.toList_ofList, quoteChars, List.mem_append, List.mem_cons] at hx
  rcases hx with (rfl | hx) | hx
  · rfl
  · obtain ⟨c, -, hc⟩ := List.mem_flatMap.mp hx
    exact isHidden_of_mem_quoteChar hc
  · rw [List.mem_singleton.mp hx]
    rfl

theorem mem_hidden {c : Char} (h : isHidden c = true) (s : String) :
    c ∈ hidden s ↔ c ∈ s.toList := by
  rw [hidden, List.mem_filter]
  exact and_iff_left h

theorem count_hidden {c : Char} (h : isHidden c = true) (s : String) :
    (hidden s).count c = s.toList.count c :=
  List.count_filter h

/-! ## 2. Lines -/

theorem dropReturn_of_notMem {line : List Char} (h : '\r' ∉ line) : dropReturn line = line := by
  unfold dropReturn
  split
  · next rest hline =>
    have hlast : '\r' ∈ line.reverse := hline ▸ List.mem_cons_self
    exact absurd (List.mem_reverse.mp hlast) h
  · rfl

theorem linesFrom_append {line : List Char} (h : '\n' ∉ line) (current rest : List Char) :
    linesFrom current (line ++ '\n' :: rest) =
      dropReturn (current.reverse ++ line) :: linesFrom [] rest := by
  induction line generalizing current with
  | nil =>
    rw [List.nil_append, linesFrom, if_pos rfl, List.append_nil]
  | cons c line ih =>
    have hc : c ≠ '\n' := fun hc => h (hc ▸ List.mem_cons_self)
    rw [List.cons_append, linesFrom, if_neg hc, ih fun hline => h (List.mem_cons_of_mem c hline),
      List.reverse_cons, List.append_assoc, List.singleton_append]

end Text

open Text

namespace Event

/-! ## 3. Records -/

/-- The texts that the record of an event shows without quotes. -/
def raw (e : Event) : String :=
  match e.kind with
  | .parFailed => fieldText e.name
  | .subscriberPanicked => fieldText e.name ++ fieldText e.reason
  | _ => ""

theorem hidden_quoted (field : Option String) : hidden (quoted field) = [] := hidden_quote _

theorem hidden_counted (field : Option Nat) : hidden (counted field) = [] := by
  cases field with
  | none => decide
  | some n =>
    have hdigits : hidden (toString n) = [] := by
      refine List.filter_eq_nil_iff.mpr fun c hc => Bool.eq_false_iff.mp ?_
      rw [Nat.toString_eq_ofList_toDigits, String.toList_ofList] at hc
      exact isHidden_of_mem_toDigits (by decide) (by decide) hc
    show hidden ("Some" ++ "(" ++ toString n ++ ")") = []
    rw [hidden_append, hidden_append, hidden_append, hdigits]
    decide

/-- Tags and names of fields are shown, and so a line hides what its fields hide. -/
theorem hidden_lineOf {tag : String} {fields : List (String × String)}
    (htag : isShown tag = true) (hnames : (fields.map (·.1)).all isShown = true) :
    hidden (lineOf tag fields) = fields.flatMap fun field => hidden field.2 := by
  have hopen : hidden "[" = [] := by decide
  have hclose : hidden "]" = [] := by decide
  have hequals : hidden "=" = [] := by decide
  rw [lineOf, hidden_separated (by decide), List.flatMap_cons, hidden_append, hidden_append, hopen,
    hclose, hidden_of_isShown htag, List.append_nil, List.nil_append, List.flatMap_map]
  refine List.flatMap_congr fun field hfield => ?_
  have hname := List.all_eq_true.mp hnames field.1 (List.mem_map_of_mem hfield)
  rw [hidden_append, hidden_append, hidden_of_isShown hname, hequals, List.nil_append,
    List.nil_append]

/-- A record hides what its texts without quotes hide. -/
theorem hidden_line (e : Event) : hidden e.line = hidden e.raw := by
  unfold line raw
  cases e.kind with
  | parFailed =>
    have htag : hidden "[par-failed] " = [] := by decide
    have herr : hidden " err=" = [] := by decide
    rw [hidden_append, hidden_append, hidden_append, htag, herr, hidden_quoted, List.append_nil,
      List.append_nil, List.nil_append]
  | subscriberPanicked =>
    rw [hidden_lineOf (by decide) (by simp only [List.map_cons, List.map_nil]; decide),
      hidden_append]
    simp only [List.flatMap_cons, List.flatMap_nil, List.append_nil]
  | shutdownRequested =>
    show hidden "[shutdown-requested]" = hidden ""
    decide
  | allStoppedWithin =>
    show hidden "[all-stopped-within-grace]" = hidden ""
    decide
  | _ =>
    -- Every other record is a tag with numbers and texts between quotes.
    rw [hidden_lineOf (by decide) (by simp only [List.map_cons, List.map_nil]; decide)]
    simp only [List.flatMap_cons, List.flatMap_nil, hidden_quoted, hidden_counted]
    rfl

theorem printed_toList (events : List Event) :
    (printed events).toList = events.flatMap fun e => e.line.toList ++ ['\n'] := by
  have hfold : ∀ text : String,
      (events.foldl (fun text event => text ++ event.line ++ "\n") text).toList =
        text.toList ++ events.flatMap fun e => e.line.toList ++ ['\n'] := by
    induction events with
    | nil => exact fun text => (List.append_nil _).symm
    | cons e events ih =>
      intro text
      rw [List.foldl_cons, ih, String.toList_append, String.toList_append, List.flatMap_cons,
        List.append_assoc, List.append_assoc, List.append_assoc]
      rfl
  exact hfold ""

theorem count_newline_line (e : Event) :
    e.line.toList.count '\n' = e.raw.toList.count '\n' := by
  have hnewline : isHidden '\n' = true := rfl
  rw [← count_hidden hnewline, ← count_hidden hnewline, hidden_line]

theorem count_newline_printed (events : List Event) :
    (printed events).toList.count '\n' =
      events.length + (events.map fun e => e.raw.toList.count '\n').sum := by
  rw [printed_toList]
  induction events with
  | nil => rfl
  | cons e events ih =>
    rw [List.flatMap_cons, List.count_append, List.count_append, ih, count_newline_line,
      List.map_cons, List.sum_cons, List.length_cons]
    have hone : ['\n'].count '\n' = 1 := rfl
    omega

theorem lines_printed {events : List Event}
    (h : ∀ e ∈ events, '\n' ∉ e.raw.toList ∧ '\r' ∉ e.raw.toList) :
    lines (printed events) = events.map line := by
  unfold lines
  rw [printed_toList]
  induction events with
  | nil => rfl
  | cons e events ih =>
    obtain ⟨hnewline, hreturn⟩ := h e List.mem_cons_self
    rw [← mem_hidden rfl, ← hidden_line, mem_hidden rfl] at hnewline hreturn
    rw [List.flatMap_cons, List.append_assoc, List.singleton_append, linesFrom_append hnewline,
      List.map_cons, ih fun other hother => h other (List.mem_cons_of_mem e hother), List.map_cons,
      List.reverse_nil, List.nil_append, dropReturn_of_notMem hreturn, String.ofList_toList]

end Event

/-- What events print, one record after another.  A record shows no hidden character but those of
the texts that it shows without quotes: the name of parallel work, and the name and the information
of an observer that panicked.  So it is one line, whose only newline is the last, exactly if none of
these holds a newline, and every newline there makes one line more.  If no event of a run holds a
newline or a return there, the lines of what was printed are the records, one for each event. -/
theorem record_breaks_at_raw_newlines_only (events : List Event) :
    (∀ e ∈ events, hidden e.line = hidden e.raw ∧
      (Event.printed [e]).toList = e.line.toList ++ ['\n'] ∧
      ('\n' ∉ e.line.toList ↔ '\n' ∉ e.raw.toList)) ∧
    (Event.printed events).toList.count '\n' =
      events.length + (events.map fun e => e.raw.toList.count '\n').sum ∧
    ((∀ e ∈ events, '\n' ∉ e.raw.toList ∧ '\r' ∉ e.raw.toList) →
      lines (Event.printed events) = events.map Event.line) := by
  refine ⟨fun e _ => ⟨Event.hidden_line e, ?_, ?_⟩, Event.count_newline_printed events,
    Event.lines_printed⟩
  · rw [Event.printed_toList, List.flatMap_singleton]
  · rw [← mem_hidden rfl, ← mem_hidden rfl, Event.hidden_line]

/-- An observer that failed with a text of two lines, and a tick of a machine whose state is one. -/
theorem record_breaks_at_raw_newlines_only_twice :
    let panicked := Event.panicOf "probe" "left\n[tick] right"
    let ticked : Event := { kind := .machineTick, state := some "a\nb\r" }
    (Event.printed [panicked, ticked]).toList.count '\n' = 3 ∧
      lines (Event.printed [ticked, ticked]) = [ticked.line, ticked.line] := by
  intro panicked ticked
  obtain ⟨-, hcount, -⟩ := record_breaks_at_raw_newlines_only [panicked, ticked]
  obtain ⟨-, -, hlines⟩ := record_breaks_at_raw_newlines_only [ticked, ticked]
  refine ⟨hcount.trans (by decide), hlines fun e he => ?_⟩
  rcases List.mem_cons.mp he with rfl | he
  · decide
  · rw [List.mem_singleton.mp he]
    decide

end Sequencer
