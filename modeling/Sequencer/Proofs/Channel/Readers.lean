import Sequencer.Channel.Shared
import Sequencer.Proofs.Broadcast

/-!
# Readers — what the subscriptions of a channel are given

A channel with its handles and subscriptions, beside the plain log of what was published.  A reader
is what is known of a subscription from outside: its key, how many samples of the key there were
when it was made, and the samples that it was given since.  Whatever is done with the channel, a
reader goes forward through the samples of its key.
-/

namespace Sequencer

/-! ## 1. Readers of a log -/

structure Reader where
  key : String
  /-- How many samples of its key there were when it was made. -/
  start : Nat
  given : List Sample := []

namespace Reader

variable {r : Reader} {places samples : List _} {slots total place : Nat}

/-- Where a reader goes on that was given the samples at `places`: behind the last of them, and at
first with the latest sample of those before it. -/
def position (r : Reader) (places : List Nat) : Nat :=
  match places.getLast? with
  | some last => last + 1
  | none => r.start - 1

/-- A reader was given the samples at `places` of the log of its key, forward and none of them
twice.  The first one is the latest sample of those before it, if there was one. -/
structure Read (r : Reader) (samples : List Sample) (places : List Nat) : Prop where
  start : r.start ≤ samples.length
  found : r.given.map some = places.map (samples[·]?)
  ordered : places.Pairwise (· < ·)
  first : ∀ place, places.head? = some place → 0 < r.start → place = r.start - 1

/-- In a log of `total` samples the reader goes on at `place`.  It passes over a later sample only
if it is behind by more than `slots` samples, and over none of the newest `slots`. -/
structure GoesOn (r : Reader) (places : List Nat) (slots total place : Nat) : Prop where
  forward : r.position places ≤ place
  first : places = [] → 0 < r.start → place = r.start - 1
  passed : ∀ other, r.position places ≤ other → other < place →
    slots < total - r.position places ∧ other + slots < total

/-- What a reader finds in the log: the sample at the place where it goes on, and otherwise nothing,
because it was given everything behind its position. -/
def Finds (r : Reader) (samples : List Sample) (places : List Nat) (slots : Nat) (isOpen : Bool) :
    SharedChannel.Item → Prop
  | .sample sample =>
    ∃ place, samples[place]? = some sample ∧ r.GoesOn places slots samples.length place
  | .pending => samples.length ≤ r.position places ∧ isOpen = true
  | .ended => samples.length ≤ r.position places ∧ isOpen = false

/-- The place where a reader goes on in a log of `total` samples. -/
def goal (r : Reader) (places : List Nat) (slots total : Nat) : Nat :=
  if places = [] ∧ 0 < r.start then r.start - 1 else max (r.position places) (total - slots)

/-- The subscription of a reader that has just been given the sample at `place`. -/
def behind (r : Reader) (place : Nat) : Subscription :=
  { key := r.key, head := none, cursor := place + 1 }

end Reader

/-! ## 2. Channels beside their log -/

/-- A channel and what is known of it from outside. -/
structure Exchange where
  shared : SharedChannel
  published : List Sample := []
  /-- The readers, one for each subscription. -/
  readers : List Reader := []
  /-- Whether a sample could not be published, or a subscription could not be made. -/
  failed : Bool := false

namespace Exchange

def ofCapacity (capacity : Nat) : Exchange :=
  { shared := { channel := Channel.ofCapacity capacity } }

/-- The samples of a key that were published, in order. -/
def samples (x : Exchange) (key : String) : List Sample :=
  x.published.filter fun sample => sample.key = key

/-- Whether somebody has the handle. -/
def holds (x : Exchange) (handle : Nat) : Bool := x.shared.handles.getD handle false

inductive Move where
  | publish (handle : Nat) (sample : Sample)
  | subscribe (handle : Nat) (key : String)
  | cloneHandle (handle : Nat)
  | dropHandle (handle : Nat)
  | next (subscription : Nat)
  | unsubscribe (subscription : Nat)

/-- A step; one that cannot be taken changes nothing. -/
def step (x : Exchange) : Move → Exchange
  | .publish handle sample =>
    if x.holds handle then
      match x.shared.publish sample with
      | (.published, shared) => { x with shared, published := x.published ++ [sample] }
      | (_, shared) => { x with shared, failed := true }
    else x
  | .subscribe handle key =>
    if x.holds handle then
      match x.shared.subscribe key with
      | (.number _, shared) =>
        { x with shared, readers := x.readers ++ [{ key, start := (x.samples key).length }] }
      | (_, shared) => { x with shared, failed := true }
    else x
  | .cloneHandle handle =>
    if x.holds handle then { x with shared := (x.shared.answer .cloneHandle).2 } else x
  | .dropHandle handle => { x with shared := (x.shared.answer (.dropHandle handle)).2 }
  | .next number =>
    match x.shared.step number with
    | (.sample sample, shared) =>
      { x with
        shared
        readers := x.readers.modify number fun r => { r with given := r.given ++ [sample] } }
    | (_, shared) => { x with shared }
  | .unsubscribe number => { x with shared := (x.shared.answer (.unsubscribe number)).2 }

def run (x : Exchange) (moves : List Move) : Exchange := moves.foldl step x

/-- Whether a step has to do with other keys only. -/
def Elsewhere (x : Exchange) (key : String) : Move → Prop
  | .publish _ sample => sample.key ≠ key
  | .subscribe _ other => other ≠ key
  | .next number => ∀ r, x.readers[number]? = some r → r.key ≠ key
  | .unsubscribe number => ∀ r, x.readers[number]? = some r → r.key ≠ key
  | .cloneHandle _ => False
  | .dropHandle _ => False

end Exchange

/-! ## 3. Topics and channels that keep their logs -/

/-- A topic has the latest sample of its log, and the newest ones in its ring. -/
structure Topic.Keeps (topic : Topic) (slots : Nat) (samples : List Sample) : Prop where
  latest : topic.latest = samples.getLast?
  ring : topic.ring.Keeps samples
  slots : topic.ring.slots = slots

theorem Topic.keeps_send {topic : Topic} {slots : Nat} {samples : List Sample}
    (keeps : topic.Keeps slots samples) (sample : Sample) :
    Topic.Keeps { latest := some sample, ring := topic.ring.send sample } slots
      (samples ++ [sample]) where
  latest := List.getLast?_concat.symm
  ring := Ring.keeps_send keeps.ring sample
  slots := keeps.slots

namespace Channel

/-- A channel has a topic for every key of which samples were published, and each keeps its log. -/
structure Keeps (channel : Channel) (capacity : Nat) (log : String → List Sample) : Prop where
  room : channel.capacity = capacity
  topics : ∀ key topic, channel.topics.get? key = some topic →
    topic.Keeps capacity.nextPowerOfTwo (log key)
  unknown : ∀ key, channel.topics.get? key = none → log key = []

variable {channel : Channel} {capacity : Nat} {log : String → List Sample}

theorem latest_of_keeps (keeps : channel.Keeps capacity log) (key : String) :
    channel.latest key = (log key).getLast? := by
  unfold latest
  cases htopic : channel.topics.get? key with
  | none =>
    rw [keeps.unknown key htopic]
    rfl
  | some topic => exact (keeps.topics key topic htopic).latest

theorem keeps_topic (keeps : channel.Keeps capacity log) {key : String} {topic : Topic}
    (h : channel.topic key = .ok topic) : topic.Keeps capacity.nextPowerOfTwo (log key) := by
  unfold Channel.topic at h
  cases htopic : channel.topics.get? key with
  | some found =>
    rw [htopic] at h
    cases h
    exact keeps.topics key topic htopic
  | none =>
    simp only [htopic] at h
    split at h
    · cases h
    · cases h
      rw [keeps.unknown key htopic, keeps.room]
      exact ⟨rfl, Ring.keeps_ofCapacity capacity, rfl⟩

/-- A channel whose rings are not too large has a topic for every key, or makes one. -/
theorem topic_of_keeps (keeps : channel.Keeps capacity log) (hcapacity : capacity ≤ maxCapacity)
    (key : String) :
    ∃ topic, channel.topic key = .ok topic ∧ topic.Keeps capacity.nextPowerOfTwo (log key) := by
  cases htopic : channel.topic key with
  | ok topic => exact ⟨topic, rfl, keeps_topic keeps htopic⟩
  | error fault =>
    unfold Channel.topic at htopic
    split at htopic
    · cases htopic
    · rw [if_neg (by rw [keeps.room]; exact Nat.not_lt.mpr hcapacity)] at htopic
      cases htopic

theorem keeps_set (keeps : channel.Keeps capacity log) {key : String} {topic : Topic}
    {log' : String → List Sample} (htopic : topic.Keeps capacity.nextPowerOfTwo (log' key))
    (hlog : ∀ other, key ≠ other → log' other = log other) :
    Keeps { channel with topics := channel.topics.set key topic } capacity log' where
  room := keeps.room
  topics other found h := by
    rw [Table.get?_set] at h
    split at h
    · next hkey =>
      cases h
      exact hkey ▸ htopic
    · next hkey =>
      rw [hlog other hkey]
      exact keeps.topics other found h
  unknown other h := by
    rw [Table.get?_set] at h
    split at h
    · cases h
    · next hkey =>
      rw [hlog other hkey]
      exact keeps.unknown other h

end Channel

/-! ## 4. Where a subscription stands -/

namespace Reader

variable {r : Reader} {places : List Nat} {samples : List Sample} {slots total place : Nat}

theorem Read.lt_length (read : r.Read samples places) (h : place ∈ places) :
    place < samples.length := by
  have hmem : samples[place]? ∈ r.given.map some := by
    rw [read.found]
    exact List.mem_map_of_mem h
  obtain ⟨sample, -, hsample⟩ := List.mem_map.mp hmem
  exact (List.getElem?_eq_some_iff.mp hsample.symm).1

/-- Samples that are published later change nothing of what a reader was given. -/
theorem Read.append (read : r.Read samples places) (sample : Sample) :
    r.Read (samples ++ [sample]) places where
  start := by
    have hstart := read.start
    rw [List.length_append]
    omega
  found := by
    rw [read.found]
    refine List.map_congr_left fun place h => ?_
    exact (List.getElem?_append_left (read.lt_length h)).symm
  ordered := read.ordered
  first := read.first

theorem Read.lt_position (read : r.Read samples places) (h : place ∈ places) :
    place < r.position places := by
  obtain ⟨earlier, last, rfl⟩ : ∃ earlier last, places = earlier ++ [last] :=
    ⟨_, _, (List.dropLast_concat_getLast (List.ne_nil_of_mem h)).symm⟩
  have hposition : r.position (earlier ++ [last]) = last + 1 := by
    unfold position
    rw [List.getLast?_concat]
  rw [hposition]
  rcases List.mem_append.mp h with h | h
  · have hlt := (List.pairwise_append.mp read.ordered).2.2 place h last List.mem_cons_self
    omega
  · rw [List.mem_singleton.mp h]
    exact Nat.lt_succ_self last

theorem goesOn_goal (r : Reader) (places : List Nat) (slots total : Nat) :
    r.GoesOn places slots total (r.goal places slots total) := by
  unfold goal
  split
  · next hfirst =>
    -- At first a reader passes over nothing, however many samples there are.
    have hposition : r.position places = r.start - 1 := by
      rw [hfirst.1]
      rfl
    exact ⟨Nat.le_of_eq hposition, fun _ _ => rfl, fun other hother hlt => by omega⟩
  · next hlater =>
    refine ⟨Nat.le_max_left _ _, fun hnone hsome => absurd ⟨hnone, hsome⟩ hlater, ?_⟩
    intro other hother hlt
    omega

/-- A reader is given the sample at the place where it goes on. -/
theorem Read.give (read : r.Read samples places) {sample : Sample}
    (hsample : samples[place]? = some sample) (goes : r.GoesOn places slots total place) :
    Read { r with given := r.given ++ [sample] } samples (places ++ [place]) where
  start := read.start
  found := by
    rw [List.map_append, List.map_append, read.found]
    show _ ++ [some sample] = _ ++ [samples[place]?]
    rw [hsample]
  ordered := by
    refine List.pairwise_append.mpr ⟨read.ordered, List.pairwise_singleton _ _, ?_⟩
    intro earlier hearlier last hlast
    have hlt := read.lt_position hearlier
    have hforward := goes.forward
    rw [List.mem_singleton.mp hlast]
    omega
  first := by
    intro first hfirst hstart
    cases hplaces : places with
    | nil =>
      rw [hplaces] at hfirst
      cases hfirst
      exact goes.first hplaces hstart
    | cons head rest =>
      rw [hplaces] at hfirst
      refine read.first first ?_ hstart
      rw [hplaces]
      exact hfirst

end Reader

/-- A subscription stands where its reader goes on: it has the latest sample of those before it at
hand until the first one is read. -/
structure Subscription.Stands (subscription : Subscription) (r : Reader) (samples : List Sample)
    (places : List Nat) : Prop where
  key : subscription.key = r.key
  head : subscription.head = if places = [] then (samples.take r.start).getLast? else none
  cursor : subscription.cursor = if places = [] then r.start else r.position places

theorem Reader.stands_behind (r : Reader) (given samples : List Sample) (places : List Nat)
    (place : Nat) :
    (r.behind place).Stands { r with given } samples (places ++ [place]) where
  key := rfl
  head := by
    rw [if_neg (List.append_ne_nil_of_right_ne_nil places (List.cons_ne_nil place []))]
    rfl
  cursor := by
    rw [if_neg (List.append_ne_nil_of_right_ne_nil places (List.cons_ne_nil place [])),
      Reader.position, List.getLast?_concat]
    rfl

namespace Channel

variable {channel : Channel} {capacity : Nat} {log : String → List Sample}

/-- The next sample of a subscription is the one at the place where its reader goes on. -/
theorem next_of_stands (keeps : channel.Keeps capacity log) {subscription : Subscription}
    {r : Reader} {places : List Nat} (read : r.Read (log r.key) places)
    (hknown : (channel.topics.get? r.key).isSome)
    (stands : subscription.Stands r (log r.key) places) :
    channel.next subscription =
      ((log r.key)[r.goal places capacity.nextPowerOfTwo (log r.key).length]?).map
        fun sample =>
          (sample, r.behind (r.goal places capacity.nextPowerOfTwo (log r.key).length)) := by
  obtain ⟨key, head, cursor⟩ := subscription
  obtain ⟨hkey, hhead, hcursor⟩ := stands
  simp only at hkey hhead hcursor
  subst hkey
  have hstart := read.start
  by_cases hfirst : places = [] ∧ 0 < r.start
  · -- The latest sample of those before it is at hand.
    have hplace : r.start - 1 < (log r.key).length := by omega
    have hlatest : head = (log r.key)[r.start - 1]? := by
      rw [hhead, if_pos hfirst.1, List.getLast?_take, if_neg (by omega),
        List.getElem?_eq_getElem hplace]
      rfl
    have hbehind : cursor = r.start - 1 + 1 := by
      rw [hcursor, if_pos hfirst.1]
      omega
    simp only [Reader.goal, Reader.behind, if_pos hfirst, next, hlatest, hbehind,
      List.getElem?_eq_getElem hplace, Option.map_some]
  · -- The ring gives what comes next.
    have hzero : places = [] → r.start = 0 := fun hplaces =>
      Nat.eq_zero_of_not_pos fun hpos => hfirst ⟨hplaces, hpos⟩
    have hnone : head = none := by
      rw [hhead]
      split
      · next hplaces =>
        rw [hzero hplaces]
        rfl
      · rfl
    have hposition : cursor = r.position places := by
      rw [hcursor]
      split
      · next hplaces =>
        rw [hplaces]
        show r.start = r.start - 1
        rw [hzero hplaces]
      · rfl
    obtain ⟨topic, htopic⟩ := Option.isSome_iff_exists.mp hknown
    obtain ⟨-, ring, hslots⟩ := keeps.topics r.key topic htopic
    simp only [Reader.goal, Reader.behind, if_neg hfirst, next, hnone, htopic, hposition, ← hslots,
      Option.bind_eq_bind, Option.bind_some, Ring.next_of_keeps ring]
    cases (log r.key)[max (r.position places) ((log r.key).length - topic.ring.slots)]? <;> rfl

end Channel

namespace Exchange

/-! ## 5. Channels that serve their readers -/

variable {x : Exchange} {capacity : Nat}

/-- The channel keeps what was published, and every subscription that is held stands where its
reader goes on. -/
structure Serves (x : Exchange) (capacity : Nat) : Prop where
  channel : x.shared.channel.Keeps capacity x.samples
  sound : x.failed = false
  numbered : x.shared.subscriptions.length = x.readers.length
  readers : ∀ (i : Nat) (r : Reader), x.readers[i]? = some r →
    (x.shared.channel.topics.get? r.key).isSome ∧
    ∃ places, r.Read (x.samples r.key) places ∧
      ∀ subscription : Subscription, x.shared.subscriptions[i]? = some (some subscription) →
        subscription.Stands r (x.samples r.key) places

theorem serves_ofCapacity (capacity : Nat) :
    (ofCapacity capacity).Serves (Nat.max capacity 1) where
  channel := ⟨rfl, (fun _ _ h => by cases h), fun _ _ => rfl⟩
  sound := rfl
  numbered := rfl
  readers _ _ h := by cases h

theorem samples_publish (x : Exchange) (shared : SharedChannel) (sample : Sample) (key : String) :
    samples { x with shared, published := x.published ++ [sample] } key =
      x.samples key ++ if sample.key = key then [sample] else [] := by
  show (x.published ++ [sample]).filter _ = _
  rw [List.filter_append]
  congr 1
  by_cases hkey : sample.key = key <;> simp [hkey]

theorem isSome_set {channel : Channel} {key other : String} {topic : Topic}
    (h : (channel.topics.get? other).isSome) :
    ((channel.topics.set key topic).get? other).isSome := by
  rw [Table.get?_set]
  split
  · rfl
  · exact h

theorem serves_publish (serves : x.Serves capacity) (hcapacity : capacity ≤ Channel.maxCapacity)
    (handle : Nat) (sample : Sample) : (x.step (.publish handle sample)).Serves capacity := by
  simp only [step]
  split
  · obtain ⟨topic, htopic, keeps⟩ :=
      Channel.topic_of_keeps serves.channel hcapacity sample.key
    have hpublish : x.shared.publish sample =
        (.published, { x.shared with channel := { x.shared.channel with
          topics := x.shared.channel.topics.set sample.key
            { latest := some sample, ring := topic.ring.send sample } } }) := by
      simp only [SharedChannel.publish, Channel.publish, htopic, bind, Except.bind, pure,
        Except.pure]
    rw [hpublish]
    refine ⟨?_, serves.sound, serves.numbered, fun i r hr => ?_⟩
    · refine Channel.keeps_set serves.channel ?_ fun other hother => ?_
      · rw [samples_publish, if_pos rfl]
        exact Topic.keeps_send keeps sample
      · rw [samples_publish, if_neg hother, List.append_nil]
    · obtain ⟨hknown, places, read, stands⟩ := serves.readers i r hr
      refine ⟨isSome_set hknown, places, ?_, fun subscription hsubscription => ?_⟩
      · rw [samples_publish]
        split
        · exact read.append sample
        · rw [List.append_nil]
          exact read
      · -- The samples before it was made are the same as before.
        obtain ⟨hkey, hhead, hcursor⟩ := stands subscription hsubscription
        refine ⟨hkey, ?_, hcursor⟩
        rw [samples_publish, List.take_append_of_le_length read.start]
        exact hhead
  · exact serves

theorem serves_subscribe (serves : x.Serves capacity) (hcapacity : capacity ≤ Channel.maxCapacity)
    (handle : Nat) (key : String) : (x.step (.subscribe handle key)).Serves capacity := by
  simp only [step]
  split
  · obtain ⟨topic, htopic, keeps⟩ := Channel.topic_of_keeps serves.channel hcapacity key
    have hsubscribe : x.shared.subscribe key =
        (.number x.shared.subscriptions.length,
          { x.shared with
            channel := { x.shared.channel with topics := x.shared.channel.topics.set key topic }
            subscriptions := x.shared.subscriptions ++
              [some { key, head := topic.latest, cursor := topic.ring.subscribe }] }) := by
      simp only [SharedChannel.subscribe, Channel.subscribe, htopic, bind, Except.bind, pure,
        Except.pure]
    rw [hsubscribe]
    refine ⟨Channel.keeps_set serves.channel keeps fun _ _ => rfl, serves.sound, ?_, ?_⟩
    · simp [serves.numbered]
    · intro i r hr
      simp only [List.getElem?_append] at hr ⊢
      rw [serves.numbered]
      split at hr
      · next hold =>
        obtain ⟨hknown, places, read, stands⟩ := serves.readers i r hr
        rw [if_pos hold]
        exact ⟨isSome_set hknown, places, read, stands⟩
      · next hnew =>
        rw [if_neg hnew]
        -- The new reader begins with the latest sample.
        obtain ⟨hi, hr⟩ := List.getElem?_eq_some_iff.mp hr
        have hfirst : i - x.readers.length = 0 := by
          simp only [List.length_singleton] at hi
          omega
        simp only [hfirst, List.getElem_cons_zero] at hr ⊢
        subst hr
        refine ⟨by simp, [], ⟨Nat.le_refl _, rfl, .nil, fun _ h => by cases h⟩, ?_⟩
        intro subscription hsubscription
        cases hsubscription
        refine ⟨rfl, ?_, keeps.ring.sent⟩
        show topic.latest = ((x.samples key).take (x.samples key).length).getLast?
        rw [List.take_length]
        exact keeps.latest
  · exact serves

/-- Nothing changes but the subscriptions that are held, and those that still are stand as
before. -/
theorem Serves.keep (serves : x.Serves capacity) {shared : SharedChannel}
    (hchannel : shared.channel = x.shared.channel)
    (hlength : shared.subscriptions.length = x.shared.subscriptions.length)
    (hheld : ∀ (i : Nat) (subscription : Subscription),
      shared.subscriptions[i]? = some (some subscription) →
        x.shared.subscriptions[i]? = some (some subscription)) :
    Serves { x with shared } capacity where
  channel := hchannel ▸ serves.channel
  sound := serves.sound
  numbered := hlength.trans serves.numbered
  readers i r hr := by
    obtain ⟨hknown, places, read, stands⟩ := serves.readers i r hr
    refine ⟨hchannel ▸ hknown, places, read, fun subscription hsubscription => ?_⟩
    exact stands subscription (hheld i subscription hsubscription)

/-- What a subscription that is held finds now. -/
theorem step_of_serves (serves : x.Serves capacity) {i : Nat} {r : Reader} {places : List Nat}
    {subscription : Subscription} (hr : x.readers[i]? = some r)
    (read : r.Read (x.samples r.key) places)
    (hheld : x.shared.subscriptions[i]? = some (some subscription))
    (stands : subscription.Stands r (x.samples r.key) places) :
    x.shared.step i =
      match (x.samples r.key)[r.goal places capacity.nextPowerOfTwo (x.samples r.key).length]? with
      | some sample =>
        (.sample sample,
          { x.shared with
            subscriptions := x.shared.subscriptions.set i
              (some (r.behind
                (r.goal places capacity.nextPowerOfTwo (x.samples r.key).length))) })
      | none => (if x.shared.isOpen then .pending else .ended, x.shared) := by
  have hnext := Channel.next_of_stands serves.channel read (serves.readers i r hr).1 stands
  simp only [SharedChannel.step, hheld, Option.join_some, hnext]
  cases (x.samples r.key)[r.goal places capacity.nextPowerOfTwo (x.samples r.key).length]? <;> rfl

theorem finds_of_serves (serves : x.Serves capacity) {i : Nat} {r : Reader} {places : List Nat}
    {subscription : Subscription} (hr : x.readers[i]? = some r)
    (read : r.Read (x.samples r.key) places)
    (hheld : x.shared.subscriptions[i]? = some (some subscription))
    (stands : subscription.Stands r (x.samples r.key) places) :
    r.Finds (x.samples r.key) places capacity.nextPowerOfTwo x.shared.isOpen
      (x.shared.step i).1 := by
  have goes := r.goesOn_goal places capacity.nextPowerOfTwo (x.samples r.key).length
  rw [step_of_serves serves hr read hheld stands]
  cases hsample :
      (x.samples r.key)[r.goal places capacity.nextPowerOfTwo (x.samples r.key).length]? with
  | some sample => exact ⟨_, hsample, goes⟩
  | none =>
    -- Nothing is there only because everything was read.
    have hnothing : (x.samples r.key).length ≤ r.position places := by
      have hgoal := List.getElem?_eq_none_iff.mp hsample
      by_cases hread : r.position places <
          r.goal places capacity.nextPowerOfTwo (x.samples r.key).length
      · have hslots := Nat.pos_of_isPowerOfTwo (Nat.isPowerOfTwo_nextPowerOfTwo capacity)
        have hpassed := (goes.passed _ (Nat.le_refl _) hread).2
        unfold Reader.goal at hgoal
        split at hgoal
        · next hfirst =>
          have hstart := read.start
          omega
        · omega
      · omega
    cases hopen : x.shared.isOpen with
    | true => exact ⟨hnothing, rfl⟩
    | false => exact ⟨hnothing, rfl⟩

theorem serves_next (serves : x.Serves capacity) (number : Nat) :
    (x.step (.next number)).Serves capacity := by
  simp only [step]
  cases hheld : x.shared.subscriptions[number]?.join with
  | none =>
    have hstep : x.shared.step number = (.ended, x.shared) := by
      simp only [SharedChannel.step, hheld]
    rw [hstep]
    exact serves
  | some subscription =>
    have hheld : x.shared.subscriptions[number]? = some (some subscription) :=
      Option.join_eq_some_iff.mp hheld
    have hnumber : number < x.readers.length := by
      rw [← serves.numbered]
      exact (List.getElem?_eq_some_iff.mp hheld).1
    have hr : x.readers[number]? = some x.readers[number] := List.getElem?_eq_getElem hnumber
    obtain ⟨hknown, places, read, stands⟩ := serves.readers number _ hr
    have hstep := step_of_serves serves hr read hheld (stands subscription hheld)
    generalize x.readers[number] = r at *
    cases hsample :
        (x.samples r.key)[r.goal places capacity.nextPowerOfTwo (x.samples r.key).length]? with
    | none =>
      rw [hstep, hsample]
      have hsame : Serves { x with shared := x.shared } capacity := serves
      cases x.shared.isOpen <;> exact hsame
    | some sample =>
      rw [hstep, hsample]
      refine ⟨serves.channel, serves.sound, ?_, fun i other hother => ?_⟩
      · simp [serves.numbered]
      · simp only [List.getElem?_modify, List.getElem?_set] at hother ⊢
        by_cases hi : number = i
        · subst hi
          rw [hr] at hother
          simp only [if_true, Option.map_eq_map, Option.map_some, Option.some.injEq] at hother
          subst hother
          refine ⟨hknown, places ++ [_], read.give hsample (r.goesOn_goal _ _ _), ?_⟩
          intro later hlater
          rw [if_pos rfl, serves.numbered, if_pos hnumber] at hlater
          cases hlater
          exact r.stands_behind _ _ _ _
        · simp only [if_neg hi] at hother ⊢
          obtain ⟨other', hother', rfl⟩ := Option.map_eq_some_iff.mp hother
          exact serves.readers i other' hother'

theorem serves_step (serves : x.Serves capacity) (hcapacity : capacity ≤ Channel.maxCapacity)
    (move : Move) : (x.step move).Serves capacity := by
  cases move with
  | publish handle sample => exact serves_publish serves hcapacity handle sample
  | subscribe handle key => exact serves_subscribe serves hcapacity handle key
  | cloneHandle handle =>
    simp only [step]
    split
    · exact serves.keep rfl rfl fun _ _ h => h
    · exact serves
  | dropHandle handle => exact serves.keep rfl rfl fun _ _ h => h
  | next number => exact serves_next serves number
  | unsubscribe number =>
    refine serves.keep rfl (List.length_set) fun i subscription h => ?_
    -- A subscription that was given up is no longer held.
    simp only [SharedChannel.answer, List.getElem?_set] at h
    split at h
    · split at h
      · cases h
      · cases h
    · exact h

theorem serves_run (serves : x.Serves capacity) (hcapacity : capacity ≤ Channel.maxCapacity)
    (moves : List Move) : (x.run moves).Serves capacity := by
  induction moves generalizing x with
  | nil => exact serves
  | cons move moves ih => exact ih (serves_step serves hcapacity move)

/-! ## 6. Keys do not touch each other -/

theorem topics_publish {shared : SharedChannel} {sample : Sample} {key : String}
    (h : sample.key ≠ key) :
    (shared.publish sample).2.channel.topics.get? key = shared.channel.topics.get? key := by
  simp only [SharedChannel.publish, Channel.publish, bind, Except.bind, pure, Except.pure]
  cases shared.channel.topic sample.key with
  | error fault => rfl
  | ok topic => exact (Table.get?_set _ _ _ _).trans (if_neg h)

theorem topics_subscribe {shared : SharedChannel} {key other : String} (h : other ≠ key) :
    (shared.subscribe other).2.channel.topics.get? key = shared.channel.topics.get? key := by
  simp only [SharedChannel.subscribe, Channel.subscribe, bind, Except.bind, pure, Except.pure]
  cases shared.channel.topic other with
  | error fault => rfl
  | ok topic => exact (Table.get?_set _ _ _ _).trans (if_neg h)

theorem subscriptions_subscribe (shared : SharedChannel) (key : String) :
    shared.subscriptions <+: (shared.subscribe key).2.subscriptions := by
  simp only [SharedChannel.subscribe]
  cases shared.channel.subscribe key with
  | error fault => exact List.prefix_refl _
  | ok made => exact List.prefix_append _ _

theorem channel_step (shared : SharedChannel) (number : Nat) :
    (shared.step number).2.channel = shared.channel ∧
      (shared.step number).2.handles = shared.handles := by
  unfold SharedChannel.step
  split
  · exact ⟨rfl, rfl⟩
  · split <;> exact ⟨rfl, rfl⟩

theorem subscriptions_step (shared : SharedChannel) {number i : Nat} (h : number ≠ i) :
    (shared.step number).2.subscriptions[i]? = shared.subscriptions[i]? := by
  unfold SharedChannel.step
  split
  · rfl
  · split
    · exact List.getElem?_set_ne h
    · rfl

/-! What a step leaves of the shared channel, whatever it notes of the readers. -/

theorem shared_publish (x : Exchange) (handle : Nat) (sample : Sample) :
    (x.step (.publish handle sample)).shared =
      if x.holds handle then (x.shared.publish sample).2 else x.shared := by
  simp only [step]
  split
  · cases x.shared.publish sample with
    | mk reply shared => cases reply <;> rfl
  · rfl

theorem shared_subscribe (x : Exchange) (handle : Nat) (key : String) :
    (x.step (.subscribe handle key)).shared =
      if x.holds handle then (x.shared.subscribe key).2 else x.shared := by
  simp only [step]
  split
  · cases x.shared.subscribe key with
    | mk reply shared => cases reply <;> rfl
  · rfl

theorem shared_next (x : Exchange) (number : Nat) :
    (x.step (.next number)).shared = (x.shared.step number).2 := by
  simp only [step]
  cases x.shared.step number with
  | mk item shared => cases item <;> rfl

theorem handles_publish (shared : SharedChannel) (sample : Sample) :
    (shared.publish sample).2.handles = shared.handles ∧
      (shared.publish sample).2.subscriptions = shared.subscriptions := by
  unfold SharedChannel.publish
  split <;> exact ⟨rfl, rfl⟩

theorem handles_subscribe (shared : SharedChannel) (key : String) :
    (shared.subscribe key).2.handles = shared.handles := by
  unfold SharedChannel.subscribe
  split <;> rfl

/-- A step that has to do with other keys leaves the topic of a key as it is. -/
theorem topics_elsewhere {move : Move} {key : String} (h : x.Elsewhere key move) :
    (x.step move).shared.channel.topics.get? key = x.shared.channel.topics.get? key := by
  cases move with
  | publish handle sample =>
    rw [shared_publish]
    split
    · exact topics_publish h
    · rfl
  | subscribe handle other =>
    rw [shared_subscribe]
    split
    · exact topics_subscribe h
    · rfl
  | cloneHandle handle => exact absurd h id
  | dropHandle handle => exact absurd h id
  | next number => rw [shared_next, (channel_step x.shared number).1]
  | unsubscribe number => rfl

/-- It leaves the subscriptions to the key as they are, and every handle. -/
theorem subscriptions_elsewhere (serves : x.Serves capacity) {move : Move} {i : Nat} {r : Reader}
    (hr : x.readers[i]? = some r) (h : x.Elsewhere r.key move) :
    (x.step move).shared.subscriptions[i]? = x.shared.subscriptions[i]? ∧
      (x.step move).shared.handles = x.shared.handles := by
  cases move with
  | publish handle sample =>
    rw [shared_publish]
    split
    · obtain ⟨hhandles, hsubscriptions⟩ := handles_publish x.shared sample
      exact ⟨congrArg (·[i]?) hsubscriptions, hhandles⟩
    · exact ⟨rfl, rfl⟩
  | subscribe handle other =>
    rw [shared_subscribe]
    split
    · refine ⟨?_, handles_subscribe x.shared other⟩
      have hi : i < x.shared.subscriptions.length := by
        rw [serves.numbered]
        exact (List.getElem?_eq_some_iff.mp hr).1
      obtain ⟨later, hlater⟩ := subscriptions_subscribe x.shared other
      rw [← hlater, List.getElem?_append_left hi]
    · exact ⟨rfl, rfl⟩
  | cloneHandle handle => exact absurd h id
  | dropHandle handle => exact absurd h id
  | next number =>
    have hnumber : number ≠ i := fun hsame => h r (hsame ▸ hr) rfl
    rw [shared_next]
    exact ⟨subscriptions_step x.shared hnumber, (channel_step x.shared number).2⟩
  | unsubscribe number =>
    have hnumber : number ≠ i := fun hsame => h r (hsame ▸ hr) rfl
    exact ⟨List.getElem?_set_ne hnumber, rfl⟩

theorem item_elsewhere (serves : x.Serves capacity) {move : Move} {i : Nat} {r : Reader}
    (hr : x.readers[i]? = some r) (h : x.Elsewhere r.key move) :
    ((x.step move).shared.step i).1 = (x.shared.step i).1 := by
  obtain ⟨hsubscriptions, hhandles⟩ := subscriptions_elsewhere serves hr h
  have hopen : (x.step move).shared.isOpen = x.shared.isOpen := by
    rw [SharedChannel.isOpen, hhandles]
    rfl
  unfold SharedChannel.step
  rw [hsubscriptions]
  cases hheld : x.shared.subscriptions[i]?.join with
  | none => rfl
  | some subscription =>
    obtain ⟨-, places, -, stands⟩ := serves.readers i r hr
    have hkey := (stands subscription (Option.join_eq_some_iff.mp hheld)).key
    have hnext : (x.step move).shared.channel.next subscription =
        x.shared.channel.next subscription := by
      unfold Channel.next
      rw [hkey, topics_elsewhere h]
    simp only [hnext, hopen]
    cases x.shared.channel.next subscription <;> rfl

end Exchange

/-- A channel in memory is the plain log of each of its keys, whatever is done with its handles and
its subscriptions.  The latest sample of a key is the last one that was published.  A subscription
is given first the latest sample of those before it, and then later ones, forward and none of them
twice; it passes over one only if it is behind by more than its ring has slots, and over none of the
newest.  It waits or ends only when it was given everything, and ends only when no handle is left.
What is done with other keys changes none of this. -/
theorem channel_follows_log (capacity : Nat)
    (hcapacity : Nat.max capacity 1 ≤ Channel.maxCapacity) (moves : List Exchange.Move) :
    let x := (Exchange.ofCapacity capacity).run moves
    let slots := (Nat.max capacity 1).nextPowerOfTwo
    x.failed = false ∧
    (∀ key, x.shared.channel.latest key = (x.samples key).getLast?) ∧
    (∀ (i : Nat) (r : Reader), x.readers[i]? = some r →
      ∃ places, r.Read (x.samples r.key) places ∧
        ((x.shared.subscriptions[i]?.join).isSome →
          r.Finds (x.samples r.key) places slots x.shared.isOpen (x.shared.step i).1)) ∧
    ∀ (key : String) (move : Exchange.Move), x.Elsewhere key move →
      (x.step move).shared.channel.latest key = x.shared.channel.latest key ∧
      ∀ (i : Nat) (r : Reader), x.readers[i]? = some r → r.key = key →
        ((x.step move).shared.step i).1 = (x.shared.step i).1 := by
  intro x slots
  have serves : x.Serves (Nat.max capacity 1) :=
    Exchange.serves_run (Exchange.serves_ofCapacity capacity) hcapacity moves
  refine ⟨serves.sound, Channel.latest_of_keeps serves.channel, fun i r hr => ?_,
    fun key move helsewhere => ⟨?_, fun i r hr hkey => ?_⟩⟩
  · obtain ⟨-, places, read, stands⟩ := serves.readers i r hr
    refine ⟨places, read, fun hheld => ?_⟩
    obtain ⟨subscription, hheld⟩ := Option.isSome_iff_exists.mp hheld
    have hheld := Option.join_eq_some_iff.mp hheld
    exact Exchange.finds_of_serves serves hr read hheld (stands subscription hheld)
  · unfold Channel.latest
    rw [Exchange.topics_elsewhere helsewhere]
  · subst hkey
    exact Exchange.item_elsewhere serves hr helsewhere

/-- A reader that is behind by more than a ring of two slots, after the last handle was dropped. -/
theorem channel_follows_log_behind :
    let x := (Exchange.ofCapacity 2).run
      [.publish 0 { key := "k", value := .bool true }, .subscribe 0 "k", .cloneHandle 0,
        .publish 1 { key := "k", value := .null }, .publish 1 { key := "j", value := .null },
        .publish 0 { key := "k", value := .bool false }, .publish 0 { key := "k", value := .null },
        .next 0, .next 0, .dropHandle 0, .dropHandle 1]
    Nat.max 2 1 ≤ Channel.maxCapacity ∧ x.failed = false ∧ x.shared.isOpen = false ∧
      ∃ r places, x.readers[0]? = some r ∧ r.given.length = 2 ∧ (x.samples r.key).length = 4 ∧
        r.Read (x.samples r.key) places ∧
        r.Finds (x.samples r.key) places 2 false (x.shared.step 0).1 := by
  intro x
  obtain ⟨hsound, -, hreaders, -⟩ := channel_follows_log 2 (by decide)
    [.publish 0 { key := "k", value := .bool true }, .subscribe 0 "k", .cloneHandle 0,
      .publish 1 { key := "k", value := .null }, .publish 1 { key := "j", value := .null },
      .publish 0 { key := "k", value := .bool false }, .publish 0 { key := "k", value := .null },
      .next 0, .next 0, .dropHandle 0, .dropHandle 1]
  have hcount : x.readers.map (fun r => (r.given.length, (x.samples r.key).length)) = [(2, 4)] := by
    decide +kernel
  obtain ⟨r, hr⟩ : ∃ r, x.readers = [r] := List.length_eq_one_iff.mp (by decide +kernel)
  rw [hr] at hcount
  simp only [List.map_cons, List.map_nil, List.cons.injEq, Prod.mk.injEq, and_true] at hcount
  have hfirst : x.readers[0]? = some r := by
    rw [hr]
    rfl
  have hclosed : x.shared.isOpen = false := by decide +kernel
  have hslots : (Nat.max 2 1).nextPowerOfTwo = 2 := by decide +kernel
  obtain ⟨places, read, finds⟩ := hreaders 0 r hfirst
  have hfinds := finds (by decide +kernel)
  rw [hslots] at hfinds
  refine ⟨by decide, hsound, hclosed, r, places, hfirst, hcount.1, hcount.2, read, ?_⟩
  rw [← hclosed]
  exact hfinds

end Sequencer
