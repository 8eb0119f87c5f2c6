import Mathlib.Logic.Function.Basic
import Sequencer.Proofs.Channel.Readers
import Sequencer.Proofs.Value.Codec
import Sequencer.Proofs.Variable.Supply

/-!
# Mirrors — variables that share their values through a channel

Any number of variables publish their values on a channel in memory and take samples from it, among
others who publish and subscribe as well.  A variable is only ever given samples of its key, and a
sample that was published by a variable of the same shape is read as the value of that variable
exactly if the value is clear.
-/

namespace Sequencer

/-! ## 1. Variables on a channel -/

/-- Somebody who takes samples for a variable. -/
structure Tap where
  target : Nat
  errand : Errand
  stream : Stream

/-- A sample that was published, by a variable or by somebody else. -/
structure Publication where
  sample : Sample
  sender : Option Variable := none

/-- What became of a sample that was taken. -/
inductive Receipt where
  /-- Its value is stored and told. -/
  | cached (sample : Sample) (v : Variable) (event : Event)
  /-- A fetch failed with it. -/
  | failed (sample : Sample) (failure : Failure)
  /-- A standing subscription told that it could not be read. -/
  | skipped (sample : Sample) (event : Event)

def Receipt.sample : Receipt → Sample
  | cached sample _ _ => sample
  | failed sample _ => sample
  | skipped sample _ => sample

structure Mirrors where
  medium : Medium
  store : Nat → Variable
  taps : Nat → Option Tap := fun _ => none
  /-- Everything that was published, in order. -/
  published : List Publication := []

namespace Mirrors

def start (capacity : Nat) (store : Nat → Variable) : Mirrors :=
  { medium := .memory (Channel.ofCapacity capacity), store }

/-- The samples of a key that were published, in order. -/
def log (x : Mirrors) (key : String) : List Sample :=
  (x.published.map (·.sample)).filter fun sample => sample.key = key

def keep (x : Mirrors) (i : Nat) (v : Variable) : Mirrors :=
  { x with store := Function.update x.store i v }

def place (x : Mirrors) (p : Nat) (tap : Option Tap) : Mirrors :=
  { x with taps := Function.update x.taps p tap }

/-- A sample is published. -/
def publish (x : Mirrors) (publication : Publication) : Except MediumFault Unit × Mirrors :=
  match x.medium.publish publication.sample with
  | .ok medium => (.ok (), { x with medium, published := x.published ++ [publication] })
  | .error fault => (.error fault, x)

/-- The variable `i` is published, if it has a value. -/
def put (x : Mirrors) (i : Nat) : Except MediumFault Unit × Mirrors :=
  match (x.store i).sample with
  | .error failure => (.error (.failed failure), x)
  | .ok none => (.ok (), x)
  | .ok (some sample) => x.publish { sample, sender := some (x.store i) }

/-- The tap `p` looks at its stream, for the machine `machine`. -/
def look (x : Mirrors) (p : Nat) (machine : String) (expired : Option Duration)
    (cancelled cancelFirst : Bool) : Option Receipt × Mirrors :=
  match x.taps p with
  | none => (none, x)
  | some tap =>
    let v := x.store tap.target
    let polled := x.medium.poll tap.stream
    match tap.errand with
    | .fetch =>
      match v.fetch machine polled expired with
      | .stored _ v event =>
        (polled.sample?.map (.cached · v event), (x.keep tap.target v).place p none)
      | .failed failure => (polled.sample?.map (.failed · failure), x.place p none)
      | .waiting => (none, x)
      | .panicked _ => (none, x.place p none)
    | .watch =>
      match v.monitor machine cancelled cancelFirst polled with
      | .stored v event stream =>
        (polled.sample?.map (.cached · v event),
          (x.keep tap.target v).place p (some { tap with stream }))
      | .rejected event stream =>
        (polled.sample?.map (.skipped · event), x.place p (some { tap with stream }))
      | .waiting => (none, x)
      | .over => (none, x.place p none)
      | .panicked _ => (none, x.place p none)

/-- The variable `i` after a sample. -/
def stored (x : Mirrors) (i : Nat) : Receipt → Mirrors
  | .cached _ v _ => x.keep i v
  | .failed _ _ => x
  | .skipped _ _ => x

inductive Move where
  | assign (i : Nat) (value : Value)
  | put (i : Nat)
  /-- Somebody else publishes a sample. -/
  | publish (sample : Sample)
  /-- Somebody else subscribes to a key. -/
  | subscribe (key : String)
  /-- The tap `p` is made for the variable `i`. -/
  | tap (p : Nat) (errand : Errand) (i : Nat)
  | look (p : Nat) (machine : String) (expired : Option Duration) (cancelled cancelFirst : Bool)
  /-- The tap `p` is given up. -/
  | leave (p : Nat)

/-- A step; one that cannot be taken changes nothing. -/
def step (x : Mirrors) : Move → Mirrors
  | .assign i value => x.keep i ((x.store i).assign value)
  | .put i => (x.put i).2
  | .publish sample => (x.publish { sample }).2
  | .subscribe key =>
    match x.medium.subscribe key with
    | .ok (medium, _) => { x with medium }
    | .error _ => x
  | .tap p errand i =>
    match x.taps p, x.medium.subscribe (x.store i).key with
    | none, .ok (medium, stream) =>
      { x with medium }.place p (some { target := i, errand, stream })
    | _, _ => x
  | .look p machine expired cancelled cancelFirst =>
    (x.look p machine expired cancelled cancelFirst).2
  | .leave p => x.place p none

def run (x : Mirrors) (moves : List Move) : Mirrors := moves.foldl step x

/-! ## 2. What a look can give -/

variable {x x' : Mirrors} {p : Nat} {machine : String} {expired : Option Duration}
  {cancelled cancelFirst : Bool} {v : Variable}

/-- What becomes of a sample that is taken for a variable: its value is stored and told, or it
cannot be read, and then a fetch fails and a standing subscription tells so. -/
inductive Becomes (machine : String) (v : Variable) (sample : Sample) :
    Errand → Receipt → Prop where
  | cached (errand : Errand) (value : Value) (hread : v.shape.decode sample.value = .ok value) :
      Becomes machine v sample errand (.cached sample (v.assign value) (v.updatedEvent machine))
  | failed (reason : String) (hread : v.shape.decode sample.value = .error reason) :
      Becomes machine v sample .fetch (.failed sample (.codec sample.key reason))
  | skipped (reason : String) (hread : v.shape.decode sample.value = .error reason) :
      Becomes machine v sample .watch
        (.skipped sample (v.rejectedEvent machine (.codec sample.key reason)))

/-- What a look gives and leaves behind: nothing new, a tap that is over, or a sample taken. -/
inductive Looks (x : Mirrors) (p : Nat) (machine : String) : Option Receipt × Mirrors → Prop where
  | nothing : Looks x p machine (none, x)
  | closed : Looks x p machine (none, x.place p none)
  | took (tap left : Tap) (sample : Sample) (receipt : Receipt) (stays : Bool)
      (htap : x.taps p = some tap)
      (hpolled : x.medium.poll tap.stream = .sample sample left.stream)
      (hleft : left = { tap with stream := left.stream })
      (hreceipt : Becomes machine (x.store tap.target) sample tap.errand receipt) :
      Looks x p machine
        (some receipt, (x.stored tap.target receipt).place p (if stays then some left else none))

theorem accept_cases (v : Variable) (sample : Sample) :
    (∃ value, v.shape.decode sample.value = .ok value ∧
      v.accept sample = .ok (value, v.assign value)) ∨
    ∃ reason, v.shape.decode sample.value = .error reason ∧
      v.accept sample = .error (.codec sample.key reason) := by
  unfold Variable.accept Sample.decode
  cases v.shape.decode sample.value with
  | ok value => exact .inl ⟨value, rfl, rfl⟩
  | error reason => exact .inr ⟨reason, rfl, rfl⟩

theorem looks_fetch {target : Nat} {stream : Stream}
    (htap : x.taps p = some { target, errand := .fetch, stream }) :
    x.Looks p machine (x.look p machine expired cancelled cancelFirst) := by
  simp only [look, htap]
  cases hpolled : x.medium.poll stream with
  | sample sample later =>
    have took := fun receipt => @Looks.took x p machine { target, errand := .fetch, stream }
      { target, errand := .fetch, stream := later } sample receipt false htap hpolled rfl
    rcases accept_cases (x.store target) sample with
      ⟨value, hread, haccept⟩ | ⟨reason, hread, haccept⟩
    · simp only [Variable.fetch, haccept, Polled.sample?, Option.map_some]
      exact took _ (.cached _ value hread)
    · simp only [Variable.fetch, haccept, Polled.sample?, Option.map_some]
      exact took _ (.failed reason hread)
  | ended => exact .closed
  | panicked payload => exact .closed
  | pending =>
    cases expired with
    | none => exact .nothing
    | some limit => exact .closed

theorem looks_watch {target : Nat} {stream : Stream}
    (htap : x.taps p = some { target, errand := .watch, stream }) :
    x.Looks p machine (x.look p machine expired cancelled cancelFirst) := by
  simp only [look, htap, Variable.monitor]
  split_ifs
  · exact .closed
  cases hpolled : x.medium.poll stream with
  | sample sample later =>
    have took := fun receipt => @Looks.took x p machine { target, errand := .watch, stream }
      { target, errand := .watch, stream := later } sample receipt true htap hpolled rfl
    rcases accept_cases (x.store target) sample with
      ⟨value, hread, haccept⟩ | ⟨reason, hread, haccept⟩
    · simp only [haccept, Polled.sample?, Option.map_some]
      exact took _ (.cached _ value hread)
    · simp only [haccept, Polled.sample?, Option.map_some]
      exact took _ (.skipped reason hread)
  | ended => exact .closed
  | panicked payload => exact .closed
  | pending => exact .nothing

theorem looks_look (x : Mirrors) (p : Nat) (machine : String) (expired : Option Duration)
    (cancelled cancelFirst : Bool) :
    x.Looks p machine (x.look p machine expired cancelled cancelFirst) := by
  cases htap : x.taps p with
  | none =>
    simp only [look, htap]
    exact .nothing
  | some tap =>
    obtain ⟨target, errand, stream⟩ := tap
    cases errand with
    | fetch => exact looks_fetch htap
    | watch => exact looks_watch htap

/-! ## 3. What a variable is given -/

variable {capacity : Nat}

/-- A stream gives samples of the key `key` that were published. -/
def Draws (log : String → List Sample) (key : String) : Stream → Prop
  | .memory subscription =>
    subscription.key = key ∧ ∀ sample, subscription.head = some sample → sample ∈ log key
  | .feed _ _ => False

/-- The channel keeps what was published, every tap draws from the key of its variable, and what was
published by a variable is its sample. -/
structure Sound (x : Mirrors) (capacity : Nat) : Prop where
  channel : ∃ channel, x.medium = .memory channel ∧ channel.Keeps capacity x.log
  taps : ∀ p tap, x.taps p = some tap → Draws x.log (x.store tap.target).key tap.stream
  sent : ∀ publication ∈ x.published, ∀ v, publication.sender = some v →
    v.sample = .ok (some publication.sample)

theorem sound_start (capacity : Nat) (store : Nat → Variable) :
    (start capacity store).Sound (Nat.max capacity 1) where
  channel := ⟨_, rfl, rfl, (fun _ _ h => by cases h), fun _ _ => rfl⟩
  taps _ _ h := by cases h
  sent _ h := by cases h

theorem mem_log {sample : Sample} {key : String} :
    sample ∈ x.log key ↔
      sample.key = key ∧ ∃ publication ∈ x.published, publication.sample = sample := by
  simp only [log, List.mem_filter, List.mem_map, decide_eq_true_eq]
  exact and_comm

/-- A channel gives a subscription only what was published under its key. -/
theorem next_mem {channel : Channel} {log : String → List Sample}
    (keeps : channel.Keeps capacity log) {subscription later : Subscription} {key : String}
    {sample : Sample} (hdraws : Draws log key (.memory subscription))
    (hnext : channel.next subscription = some (sample, later)) :
    sample ∈ log key ∧ Draws log key (.memory later) := by
  obtain ⟨rfl, hhead⟩ := hdraws
  have hlater : ∀ cursor, Draws log subscription.key
      (.memory { subscription with head := none, cursor }) :=
    fun cursor => ⟨rfl, fun _ h => by cases h⟩
  unfold Channel.next at hnext
  cases hfirst : subscription.head with
  | some first =>
    simp only [hfirst, Option.some.injEq, Prod.mk.injEq] at hnext
    obtain ⟨rfl, rfl⟩ := hnext
    exact ⟨hhead first hfirst, hlater subscription.cursor⟩
  | none =>
    simp only [hfirst, Option.bind_eq_bind, Option.bind_eq_some_iff] at hnext
    obtain ⟨topic, htopic, ⟨given, cursor⟩, hgiven, hsame⟩ := hnext
    cases hsame
    rw [Ring.next_of_keeps (keeps.topics _ topic htopic).ring] at hgiven
    obtain ⟨found, hfound, hsame⟩ := Option.map_eq_some_iff.mp hgiven
    cases hsame
    exact ⟨List.mem_of_getElem? hfound, hlater _⟩

theorem Draws.mono {log log' : String → List Sample} {key : String} {stream : Stream}
    (h : Draws log key stream) (hlog : ∀ sample ∈ log key, sample ∈ log' key) :
    Draws log' key stream := by
  cases stream with
  | memory subscription => exact ⟨h.1, fun sample hsample => hlog sample (h.2 sample hsample)⟩
  | feed rest finish => exact h.elim

theorem key_keep {i : Nat} (hkey : v.key = (x.store i).key) (j : Nat) :
    ((x.keep i v).store j).key = (x.store j).key := by
  show (Function.update x.store i v j).key = _
  by_cases h : j = i
  · rw [h, Function.update_self, hkey]
  · rw [Function.update_of_ne h]

/-- A variable is written; it keeps its key. -/
theorem Sound.keep (sound : x.Sound capacity) {i : Nat} (hkey : v.key = (x.store i).key) :
    (x.keep i v).Sound capacity where
  channel := sound.channel
  taps p tap htap := by
    rw [key_keep hkey]
    exact sound.taps p tap htap
  sent := sound.sent

theorem Sound.place (sound : x.Sound capacity) (p : Nat) {tap : Option Tap}
    (h : ∀ t, tap = some t → Draws x.log (x.store t.target).key t.stream) :
    (x.place p tap).Sound capacity where
  channel := sound.channel
  taps q t ht := by
    have ht : Function.update x.taps p tap q = some t := ht
    by_cases hq : q = p
    · rw [hq, Function.update_self] at ht
      exact h t ht
    · rw [Function.update_of_ne hq] at ht
      exact sound.taps q t ht
  sent := sound.sent

theorem Sound.free (sound : x.Sound capacity) (p : Nat) : (x.place p none).Sound capacity :=
  sound.place p fun _ h => by cases h

theorem log_publish (x : Mirrors) (medium : Medium) (publication : Publication) (key : String) :
    log { x with medium, published := x.published ++ [publication] } key =
      x.log key ++ if publication.sample.key = key then [publication.sample] else [] := by
  show ((x.published ++ [publication]).map (·.sample)).filter _ = _
  rw [List.map_append, List.filter_append]
  congr 1
  by_cases hkey : publication.sample.key = key <;> simp [hkey]

/-- A sample is published, unless the rings of the channel are too large. -/
theorem publish_cases (sound : x.Sound capacity) (publication : Publication)
    (hsent : ∀ v, publication.sender = some v → v.sample = .ok (some publication.sample)) :
    (∃ medium, x.publish publication =
        (.ok (), { x with medium, published := x.published ++ [publication] }) ∧
      Sound { x with medium, published := x.published ++ [publication] } capacity) ∨
    (Channel.maxCapacity < capacity ∧
      x.publish publication = (.error (Medium.ofExcess {}), x)) := by
  obtain ⟨channel, hmedium, keeps⟩ := sound.channel
  unfold publish
  rw [hmedium]
  cases htopic : channel.topic publication.sample.key with
  | error fault =>
    refine .inr ⟨?_, ?_⟩
    · by_contra hsmall
      obtain ⟨topic, hfound, -⟩ :=
        Channel.topic_of_keeps keeps (Nat.not_lt.mp hsmall) publication.sample.key
      rw [htopic] at hfound
      cases hfound
    · simp only [Medium.publish, Channel.publish, htopic, bind, Except.bind]
  | ok topic =>
    have hkeeps := Channel.keeps_topic keeps htopic
    refine .inl ⟨.memory { channel with topics := (channel.topics.set publication.sample.key
      ⟨some publication.sample, topic.ring.send publication.sample⟩) }, ?_, ?_⟩
    · simp only [Medium.publish, Channel.publish, htopic, bind, Except.bind, pure, Except.pure]
    · refine ⟨⟨_, rfl, Channel.keeps_set keeps ?_ fun other hother => ?_⟩, ?_, ?_⟩
      · rw [log_publish, if_pos rfl]
        exact Topic.keeps_send hkeeps _
      · rw [log_publish, if_neg hother, List.append_nil]
      · intro p tap htap
        refine (sound.taps p tap htap).mono fun sample hsample => ?_
        rw [log_publish]
        exact List.mem_append_left _ hsample
      · intro other hother v hv
        rcases List.mem_append.mp hother with hold | hnew
        · exact sound.sent other hold v hv
        · rw [List.mem_singleton.mp hnew] at hv ⊢
          exact hsent v hv

theorem sound_publish (sound : x.Sound capacity) (publication : Publication)
    (hsent : ∀ v, publication.sender = some v → v.sample = .ok (some publication.sample)) :
    (x.publish publication).2.Sound capacity := by
  rcases publish_cases sound publication hsent with ⟨medium, h, hsound⟩ | ⟨-, h⟩
  · rw [h]
    exact hsound
  · rw [h]
    exact sound

theorem sound_subscribe (sound : x.Sound capacity) {key : String} {medium : Medium}
    {stream : Stream} (h : x.medium.subscribe key = .ok (medium, stream)) :
    Sound { x with medium } capacity ∧ Draws x.log key stream := by
  obtain ⟨channel, hmedium, keeps⟩ := sound.channel
  rw [hmedium] at h
  cases htopic : channel.topic key with
  | error fault =>
    simp only [Medium.subscribe, Channel.subscribe, htopic, bind, Except.bind] at h
    cases h
  | ok topic =>
    have hkeeps := Channel.keeps_topic keeps htopic
    simp only [Medium.subscribe, Channel.subscribe, htopic, bind, Except.bind, pure,
      Except.pure] at h
    cases h
    refine ⟨⟨⟨_, rfl, Channel.keeps_set keeps hkeeps fun _ _ => rfl⟩, sound.taps, sound.sent⟩,
      rfl, fun sample hsample => ?_⟩
    have hlatest : topic.latest = some sample := hsample
    rw [hkeeps.latest] at hlatest
    exact List.mem_of_getLast? hlatest

/-- A tap that takes a sample takes one that was published under the key of its variable. -/
theorem sound_poll (sound : x.Sound capacity) {tap : Tap} (htap : x.taps p = some tap)
    {sample : Sample} {stream : Stream}
    (hpolled : x.medium.poll tap.stream = .sample sample stream) :
    sample ∈ x.log (x.store tap.target).key ∧ Draws x.log (x.store tap.target).key stream := by
  have hdraws := sound.taps p tap htap
  obtain ⟨channel, hmedium, keeps⟩ := sound.channel
  rw [hmedium] at hpolled
  cases hstream : tap.stream with
  | feed rest finish =>
    rw [hstream] at hdraws
    exact hdraws.elim
  | memory subscription =>
    rw [hstream] at hdraws hpolled
    simp only [Medium.poll] at hpolled
    cases hnext : channel.next subscription with
    | none =>
      rw [hnext] at hpolled
      cases hpolled
    | some given =>
      rw [hnext] at hpolled
      cases hpolled
      exact next_mem keeps hdraws hnext

theorem sound_stored (sound : x.Sound capacity) {sample : Sample} {i : Nat} {errand : Errand}
    {receipt : Receipt} (hreceipt : Becomes machine (x.store i) sample errand receipt) :
    (x.stored i receipt).Sound capacity ∧ (x.stored i receipt).log = x.log ∧
      ((x.stored i receipt).store i).key = (x.store i).key := by
  cases hreceipt with
  | cached errand value hread =>
    exact ⟨sound.keep rfl, rfl, key_keep (v := (x.store i).assign value) rfl i⟩
  | failed reason hread => exact ⟨sound, rfl, rfl⟩
  | skipped reason hread => exact ⟨sound, rfl, rfl⟩

theorem sound_looks (sound : x.Sound capacity) {looked : Option Receipt × Mirrors}
    (hlooks : x.Looks p machine looked) : looked.2.Sound capacity := by
  cases hlooks with
  | nothing => exact sound
  | closed => exact sound.free p
  | took tap left sample receipt stays htap hpolled hleft hreceipt =>
    obtain ⟨hsound, hlog, hkey⟩ := sound_stored sound hreceipt
    refine hsound.place p fun t ht => ?_
    obtain ⟨-, rfl⟩ : stays = true ∧ left = t := by simpa using ht
    have htarget : left.target = tap.target := by rw [hleft]
    rw [hlog, htarget, hkey]
    exact (sound_poll sound htap hpolled).2

theorem sound_step (sound : x.Sound capacity) (move : Move) : (x.step move).Sound capacity := by
  cases move with
  | assign i value => exact sound.keep rfl
  | put i =>
    show (x.put i).2.Sound capacity
    unfold put
    cases hsample : (x.store i).sample with
    | error failure => exact sound
    | ok sent =>
      cases sent with
      | none => exact sound
      | some sample =>
        refine sound_publish sound _ fun v hv => ?_
        cases hv
        exact hsample
  | publish sample => exact sound_publish sound _ fun _ h => by cases h
  | subscribe key =>
    simp only [step]
    split
    · next medium stream h => exact (sound_subscribe sound h).1
    · exact sound
  | tap p errand i =>
    simp only [step]
    split
    · next medium stream hfree h =>
      obtain ⟨hsound, hdraws⟩ := sound_subscribe sound h
      refine hsound.place p fun t ht => ?_
      cases ht
      exact hdraws
    · exact sound
  | look p machine expired cancelled cancelFirst =>
    exact sound_looks sound (looks_look x p machine expired cancelled cancelFirst)
  | leave p => exact sound.free p

theorem sound_run (sound : x.Sound capacity) (moves : List Move) :
    (x.run moves).Sound capacity := by
  induction moves generalizing x with
  | nil => exact sound
  | cons move moves ih => exact ih (sound_step sound move)

/-! ## 4. Puts and receipts -/

/-- What a put of the variable `i` does. -/
inductive Puts (x : Mirrors) (capacity i : Nat) : Prop where
  /-- Without a value it does nothing. -/
  | unset (hvalue : (x.store i).value = none) (hput : x.put i = (.ok (), x))
  /-- A value that has no document is a failure with the key, and nothing else. -/
  | refused (value : Value) (reason : String) (hvalue : (x.store i).value = some value)
      (hencode : value.encode = .error reason)
      (hput : x.put i = (.error (.failed (.codec (x.store i).key reason)), x))
  /-- The sample of the value is published. -/
  | published (value : Value) (document : Json) (medium : Medium)
      (hvalue : (x.store i).value = some value) (hencode : value.encode = .ok document)
      (hput : x.put i = (.ok (), { x with
        medium
        published := x.published ++
          [{ sample := { key := (x.store i).key, value := document }
             sender := some (x.store i) }] }))
      (hlatest : medium.latest (x.store i).key =
        some { key := (x.store i).key, value := document })
  /-- The rings of the channel are too large. -/
  | exceeded (hlarge : Channel.maxCapacity < capacity)
      (hput : x.put i = (.error (Medium.ofExcess {}), x))

theorem puts_of_sound (sound : x.Sound capacity) (i : Nat) : x.Puts capacity i := by
  cases hvalue : (x.store i).value with
  | none => exact .unset hvalue (by simp only [put, Variable.sample, hvalue])
  | some value =>
    cases hencode : value.encode with
    | error reason =>
      refine .refused value reason hvalue hencode ?_
      simp only [put, Variable.sample, Sample.encode, hvalue, hencode]
      rfl
    | ok document =>
      have hsample : (x.store i).sample =
          .ok (some { key := (x.store i).key, value := document }) := by
        simp only [Variable.sample, Sample.encode, hvalue, hencode]
        rfl
      have hput : x.put i = x.publish { sample := { key := (x.store i).key, value := document }
                                        sender := some (x.store i) } := by
        simp only [put, hsample]
      rcases publish_cases sound
          { sample := { key := (x.store i).key, value := document }, sender := some (x.store i) }
          (fun v hv => by cases hv; exact hsample) with
        ⟨medium, hpublish, hsound⟩ | ⟨hlarge, hpublish⟩
      · refine .published value document medium hvalue hencode (hput.trans hpublish) ?_
        obtain ⟨channel, hmedium, keeps⟩ := hsound.channel
        have hmedium : medium = .memory channel := hmedium
        rw [hmedium]
        show channel.latest _ = _
        rw [Channel.latest_of_keeps keeps, log_publish, if_pos rfl, List.getLast?_concat]
      · exact .exceeded hlarge (hput.trans hpublish)

end Mirrors

namespace Receipt

/-- The value that was stored. -/
def value? : Receipt → Option Value
  | cached _ v _ => v.value
  | failed _ _ => none
  | skipped _ _ => none

variable {machine : String} {v : Variable} {sample : Sample} {errand : Errand} {receipt : Receipt}

theorem sample_of_becomes (h : Mirrors.Becomes machine v sample errand receipt) :
    receipt.sample = sample := by
  cases h <;> rfl

theorem value?_eq_some_iff (h : Mirrors.Becomes machine v sample errand receipt) (value : Value) :
    receipt.value? = some value ↔ v.shape.decode sample.value = .ok value := by
  cases h with
  | cached errand stored hread =>
    rw [hread]
    exact ⟨fun h => congrArg _ (Option.some.inj h), fun h => congrArg _ (Except.ok.inj h)⟩
  | failed reason hread =>
    rw [hread]
    exact ⟨nofun, nofun⟩
  | skipped reason hread =>
    rw [hread]
    exact ⟨nofun, nofun⟩

end Receipt

/-- A variable that was put has the document of its value in its sample. -/
theorem Variable.encode_of_sample {v : Variable} {value : Value} {sample : Sample}
    (hvalue : v.value = some value) (h : v.sample = .ok (some sample)) :
    value.encode = .ok sample.value := by
  simp only [Variable.sample, hvalue, Sample.encode] at h
  cases hencode : value.encode with
  | ok document =>
    rw [hencode] at h
    cases h
    rfl
  | error reason =>
    rw [hencode] at h
    cases h

/-- Variables that share their values through a channel in memory, whoever else uses it.  A put
publishes the sample of the value, or fails with the key if the value has no document and publishes
nothing.  What a variable is given was published under its key.  If it was published by a variable
of the same shape, then the value of that variable is read and stored exactly if all doubles in it
are finite and nothing in it is there without being anything; any other value is published all the
same, and is read as another one or cannot be read. -/
theorem mirrors_receive_clear_values (capacity : Nat) (store : Nat → Variable)
    (moves : List Mirrors.Move) :
    let x := (Mirrors.start capacity store).run moves
    (∀ i, x.Puts (Nat.max capacity 1) i) ∧
    ∀ p machine expired cancelled cancelFirst receipt,
      (x.look p machine expired cancelled cancelFirst).1 = some receipt →
      ∃ tap, x.taps p = some tap ∧
        (x.look p machine expired cancelled cancelFirst).2.store =
          (x.stored tap.target receipt).store ∧
        Mirrors.Becomes machine (x.store tap.target) receipt.sample tap.errand receipt ∧
        receipt.sample.key = (x.store tap.target).key ∧
        (∃ publication ∈ x.published, publication.sample = receipt.sample) ∧
        ∀ (sender : Variable) (value : Value),
          { sample := receipt.sample, sender := some sender } ∈ x.published →
          sender.shape = (x.store tap.target).shape → sender.value = some value →
          sender.shape.Admits value → (receipt.value? = some value ↔ value.Clear) := by
  intro x
  have sound : x.Sound (Nat.max capacity 1) :=
    Mirrors.sound_run (Mirrors.sound_start capacity store) moves
  refine ⟨Mirrors.puts_of_sound sound, ?_⟩
  intro p machine expired cancelled cancelFirst receipt hlook
  have hlooks := Mirrors.looks_look x p machine expired cancelled cancelFirst
  generalize x.look p machine expired cancelled cancelFirst = looked at hlook hlooks ⊢
  cases hlooks with
  | nothing => cases hlook
  | closed => cases hlook
  | took tap left sample given stays htap hpolled hleft hreceipt =>
    cases hlook
    obtain ⟨hkey, hpublished⟩ := Mirrors.mem_log.mp (Mirrors.sound_poll sound htap hpolled).1
    rw [Receipt.sample_of_becomes hreceipt]
    refine ⟨tap, htap, rfl, hreceipt, hkey, hpublished, ?_⟩
    intro sender value hsent hshape hvalue hadmits
    have hencode := Variable.encode_of_sample hvalue (sound.sent _ hsent sender rfl)
    rw [Receipt.value?_eq_some_iff hreceipt, ← hshape]
    exact decode_eq_ok_iff_clear value hadmits hencode

/-- A structure with a list that is there and a map, in the order of its type. -/
theorem mirrors_receive_clear_values_nested :
    let shape : Shape := .record "Report"
      [("ra", .float), ("notes", .option (.list .text)), ("by", .map Shape.u8)]
    let value : Value := .record "Report"
      [("ra", .float (Binary64.ofInt (-3))),
        ("notes", .option (some (.list [.text "ok", .text ""]))),
        ("by", .map [("a", .int 0), ("b", .int 255)])]
    let x := (Mirrors.start 4 fun i =>
        { key := "k", shape, value := if i = 0 then some value else none }).run
      [.put 0, .publish { key := "j", value := .null }, .tap 3 .watch 1]
    ∃ receipt, (x.look 3 "m" none false false).1 = some receipt ∧ receipt.value? = some value := by
  intro shape value x
  have hadmits : shape.Admits value := by
    refine ⟨rfl, by decide, rfl, trivial, rfl, ⟨trivial, trivial, trivial⟩, rfl, ?_, trivial⟩
    exact ⟨by decide, ⟨by decide, by decide⟩, ⟨by decide, by decide⟩, trivial⟩
  have hclear : value.Clear :=
    ⟨rfl, ⟨⟨trivial, trivial, trivial⟩, rfl⟩, ⟨trivial, trivial, trivial⟩, trivial⟩
  obtain ⟨-, hreceive⟩ := mirrors_receive_clear_values 4
    (fun i => { key := "k", shape, value := if i = 0 then some value else none })
    [.put 0, .publish { key := "j", value := .null }, .tap 3 .watch 1]
  obtain ⟨tap, -, -, -, -, -, hstored⟩ := hreceive 3 "m" none false false _ rfl
  have hvalue := (hstored { key := "k", shape, value := some value } value List.mem_cons_self
    rfl rfl hadmits).mpr hclear
  exact ⟨_, rfl, hvalue⟩

/-- An infinite double is published without complaint, and a variable of the same shape cannot
fetch it. -/
theorem infinite_value_misses_its_mirror :
    let x := Mirrors.start 256 fun i =>
      { key := "k"
        shape := .float
        value := if i = 0 then some (.float (.infinite false)) else none }
    let sample : Sample := { key := "k", value := .null }
    Shape.float.Admits (.float (.infinite false)) ∧ (x.put 0).1 = .ok () ∧
      (x.put 0).2.published.map (·.sample) = [sample] ∧
      ((x.run [.put 0, .tap 0 .fetch 1]).look 0 "m" none false false).1 =
        some (.failed sample (.codec "k" "invalid type: null, expected f64")) :=
  ⟨trivial, rfl, rfl, rfl⟩

end Sequencer
