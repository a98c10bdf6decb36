import Rtest.Calls.Fixtures
import Rtest.Clock.NodeTimers
import Rtest.Registry.TopicNames

/-!
# A publisher under test

The node `test_publisher` publishes every 500 ms and whenever it is asked to. A test moves the
node's time, calls its member functions, fires its timer by hand and looks at what the mock of its
publisher records.

The registry of the publisher, its mocks and the timer's clock do not interfere: what a mock records
can be written down from what the test does.

## Main definitions

- `PublisherNode` — the node, its time and the mocks
- `PublisherNode.step` — what a test does with it
- `PublisherNode.published` — the messages that a list of events should make it publish

## Main results

- `PublisherNode.recorded_published` — a mock records these messages
-/

namespace Rtest

open World Rounding

/-- The node has one publisher and one timer; the mocks of the publisher and the subscriptions they
pretend are part of the test. -/
structure PublisherNode where
  sim : Sim
  session : Session String
  subscriptionsCount : MockRef → ℕ

/-- What a test does; `matched` are the subscriptions that rclcpp itself counts. -/
inductive PublisherEvent where
  | advance (d : Duration)
  | executeCallback
  | publishCopy
  | publishUniquePtr
  | publishLoanedMsg
  | publishIfSubscribersListening (matched : ℕ)
  | findPublisher (name : Name)
  | releaseMock (m : MockRef)
  | setSubscriptionCount (m : MockRef) (count : ℕ)
  deriving DecidableEq, Repr

namespace PublisherNode

/-- `publisher_`. -/
abbrev publisher : EntityRef := 0

/-- `timer`. -/
abbrev timer : TimerRef := 0

/-- 500 ms. -/
def timerRequest : TimerRequest := ⟨true, true, true, ⟨500, 1000000⟩, true⟩

/-- The type `std_msgs::msg::String`. -/
abbrev stringMsg : Interface := 0

/-- `publisher_->publish`. -/
def publish (p : Publication String) (s : PublisherNode) : PublisherNode :=
  { s with session := (s.session.call publisher (.publish p)).2 }

/-- The callback of the timer. -/
def timerCallback (s : PublisherNode) : PublisherNode := s.publish (.uniquePtr "timer")

/-- `get_subscription_count()`. -/
def getSubscriptionCount (matched : ℕ) (s : PublisherNode) : ℕ :=
  match s.session.world.receiver publisher with
  | some mock => matched + s.subscriptionsCount mock
  | none => matched

def publishCopy (s : PublisherNode) : PublisherNode := s.publish (.constRef "copy")

def publishUniquePtr (s : PublisherNode) : PublisherNode := s.publish (.uniquePtr "unique_ptr")

/-- A message that was just borrowed is valid. -/
def publishLoanedMsg (s : PublisherNode) : PublisherNode := s.publish (.loaned (some "loaned_msg"))

def publishIfSubscribersListening (matched : ℕ) (s : PublisherNode) : PublisherNode :=
  if s.getSubscriptionCount matched ≠ 0 then s.publish (.uniquePtr "if_subscribers_listening")
  else s

/-- The callbacks of the timers that were called, in order. -/
def runCallbacks (s : PublisherNode) (called : List (TimerRef × ℤ)) : PublisherNode :=
  called.foldl (fun s call => if call.1 = timer then s.timerCallback else s) s

variable (env : Env) (rnd : ℚ → ℚ)

/-- The node is constructed under simulated time, where its clock reads zero, and the triggering
clock takes over. -/
def start (node : Node) (this : Addr) : PublisherNode where
  sim := (TriggeringTestClock.construct env ⟨true, true, true, true⟩
    (Sim.createTimer env rnd timerRequest (.freshNode node.controlBlock 0)).2).2
  session := ⟨(World.init.act (.createNode node)).act
    (.createEntity .publisher stringMsg this 0 (expandTopicName node "test_topic".toList)), []⟩
  subscriptionsCount := fun _ => 0

/-- One event; only what lives can be released or set up. -/
def step (s : PublisherNode) : PublisherEvent → Option PublisherNode
  | .advance d => (TriggeringTestClock.advance env d s.sim).map fun r =>
      { s with sim := r.2 }.runCallbacks (r.2.trace.drop s.sim.trace.length)
  | .executeCallback => some { s with sim := s.sim.executeCallback env timer }.timerCallback
  | .publishCopy => some s.publishCopy
  | .publishUniquePtr => some s.publishUniquePtr
  | .publishLoanedMsg => some s.publishLoanedMsg
  | .publishIfSubscribersListening matched => some (s.publishIfSubscribersListening matched)
  | .findPublisher name =>
    (s.session.step (.op (.find .publisher stringMsg 0 name))).map fun session =>
      { s with
        session := session
        subscriptionsCount := Function.update s.subscriptionsCount s.session.world.mocks.next 0 }
  | .releaseMock m =>
    (s.session.step (.op (.releaseMock m))).map fun session => { s with session := session }
  | .setSubscriptionCount m count =>
    if s.session.world.mocks.alive m then
      some { s with subscriptionsCount := Function.update s.subscriptionsCount m count }
    else none

/-- The mock that `findPublisher` returns. -/
def findPublisher (name : Name) (s : PublisherNode) : Option MockRef :=
  (s.session.world.handsOut .publisher stringMsg 0 name).map Prod.snd

end PublisherNode

namespace PublisherEvent

/-- The clock is not moved back. -/
def Sound : PublisherEvent → Prop
  | advance d => 0 ≤ d.nanoseconds
  | _ => True

/-- By how much an event moves the clock. -/
def elapses : PublisherEvent → ℤ
  | advance d => d.nanoseconds
  | _ => 0

/-- Whether the event ends what a mock can see. -/
def hangsUp : PublisherEvent → Bool
  | releaseMock _ => true
  | _ => false

/-- The subscriptions that the mock pretends afterwards. -/
def pretended (count : ℕ) : PublisherEvent → ℕ
  | setSubscriptionCount _ count' => count'
  | _ => count

/-- The messages published at time `τ`, where the mock pretends `count` subscriptions: that of the
timer once for each whole period that ends. -/
def messages (τ : ℤ) (count : ℕ) : PublisherEvent → List String
  | advance d => List.replicate ((τ + d.nanoseconds) / 500000000 - τ / 500000000).toNat "timer"
  | executeCallback => ["timer"]
  | publishCopy => ["copy"]
  | publishUniquePtr => ["unique_ptr"]
  | publishLoanedMsg => ["loaned_msg"]
  | publishIfSubscribersListening matched =>
    if matched + count = 0 then [] else ["if_subscribers_listening"]
  | _ => []

end PublisherEvent

namespace PublisherNode

/-- The messages published from time `τ` on, until the mock is released. -/
def published (τ : ℤ) (count : ℕ) : List PublisherEvent → List String
  | [] => []
  | ev :: evs =>
    if ev.hangsUp then []
    else ev.messages τ count ++ published (τ + ev.elapses) (ev.pretended count) evs

variable {env : Env} {rnd : ℚ → ℚ} {s s' : PublisherNode} {τ : ℤ} {ev : PublisherEvent}
  {evs : List PublisherEvent} {m : MockRef} {count : ℕ}

-- ════════════════════════════════════════════════════════════════════════
-- Publishing
-- ════════════════════════════════════════════════════════════════════════

/-- What a mock records when it is called. -/
def record (msgs : List String) : List (Method × String) := msgs.map fun msg => (.publish, msg)

/-- Nothing happened but that some messages were published. -/
structure Publishes (s s' : PublisherNode) (msgs : List String) : Prop where
  sim : s'.sim = s.sim
  world : s'.session.world = s.session.world
  subscriptionsCount : s'.subscriptionsCount = s.subscriptionsCount
  recorded : ∀ m, s'.session.recorded m = s.session.recorded m ++
    if s.session.world.receiver publisher = some m then record msgs else []

theorem Publishes.refl (s : PublisherNode) : Publishes s s [] where
  sim := rfl
  world := rfl
  subscriptionsCount := rfl
  recorded := by
    intro m
    simp [record]

theorem Publishes.trans {s'' : PublisherNode} {msgs msgs' : List String}
    (h : Publishes s s' msgs) (h' : Publishes s' s'' msgs') : Publishes s s'' (msgs ++ msgs') where
  sim := h'.sim.trans h.sim
  world := h'.world.trans h.world
  subscriptionsCount := h'.subscriptionsCount.trans h.subscriptionsCount
  recorded := by
    intro m
    rw [h'.recorded, h.recorded, h.world]
    split
    · simp [record]
    · simp

theorem publishes_publish {p : Publication String} {msg : String} (hp : p.message = .ok msg)
    (s : PublisherNode) : Publishes s (s.publish p) [msg] := by
  have hforwarded : (Call.publish p).forwarded = .ok (.publish, msg) := by
    rw [Call.forwarded, hp]
    rfl
  have hcall : (s.publish p).session = { s.session with
      received := s.session.received ++ match s.session.world.receiver publisher with
        | some m => [(m, .publish, msg)]
        | none => [] } := by
    simp only [publish, Session.call, hforwarded]
    cases s.session.world.receiver publisher with
    | none => simp
    | some m => rfl
  refine ⟨rfl, by rw [hcall], rfl, fun m => ?_⟩
  rw [hcall, Session.recorded, List.filter_append, List.map_append]
  congr 1
  cases s.session.world.receiver publisher with
  | none => rfl
  | some m' => by_cases hm : m' = m <;> simp [hm, record]

/-- **The callbacks of an `advance`** publish as often as the timer was called. -/
theorem publishes_runCallbacks (s : PublisherNode) (called : List (TimerRef × ℤ)) :
    Publishes s (s.runCallbacks called)
      (List.replicate (called.countP fun call => call.1 = timer) "timer") := by
  induction called generalizing s with
  | nil => exact .refl s
  | cons call called ih =>
    rw [runCallbacks, List.foldl_cons]
    by_cases hcall : call.1 = timer
    · have hfirst : Publishes s s.timerCallback ["timer"] := publishes_publish rfl s
      rw [if_pos hcall, List.countP_cons_of_pos (by simpa using hcall), List.replicate_succ]
      exact hfirst.trans (ih s.timerCallback)
    · rw [if_neg hcall, List.countP_cons_of_neg (by simpa using hcall)]
      exact ih s

-- ════════════════════════════════════════════════════════════════════════
-- The timer
-- ════════════════════════════════════════════════════════════════════════

/-- The alarm that the timer is, at time `τ`. -/
def alarm (τ : ℤ) : Alarm := (Alarm.wind 0 500000000 true).elapse τ

theorem rings_alarm (hτ : 0 ≤ τ) : ((alarm τ).rings : ℤ) = τ / 500000000 := by
  rw [alarm, Alarm.rings_elapse (by decide) true hτ, Int.sub_zero, if_pos rfl]

/-- The node's time is `τ`, and its timer stands as it should. -/
structure Punctual (u : Sim) (τ : ℤ) : Prop where
  tended : u.Tended
  now : u.now = τ
  nonneg : 0 ≤ τ
  shows : u.Shows timer { alarm τ with rings := u.calls timer }

/-- The trace only grows. -/
theorem stable_trace (henv : Quiet env) (trace : List (TimerRef × ℤ)) :
    Sim.Stable env fun u => trace <+: u.trace where
  congr := by
    intro u v h _ _ _ htrace
    rwa [htrace]
  overridden := fun _ h => h
  fire := by
    intro u t h
    obtain ⟨n, hfire⟩ | ⟨timer, next, n, -, -, hfire⟩ := Sim.fire_cases henv u t
    · rwa [hfire]
    · rw [hfire]
      exact h.trans (List.prefix_append ..)

/-- **An `advance`** calls the timer once for each whole period that ends. -/
theorem Punctual.advance (henv : Quiet env) {u : Sim} (h : Punctual u τ) {d : Duration}
    (hd : 0 ≤ d.nanoseconds) : ∃ v called, TriggeringTestClock.advance env d u = some (.ok (), v) ∧
      Punctual v (τ + d.nanoseconds) ∧ v.trace = u.trace ++ called ∧
      called.countP (fun call => call.1 = timer) =
        ((τ + d.nanoseconds) / 500000000 - τ / 500000000).toNat := by
  obtain ⟨v, hv, hpinned, hreleased, hunder⟩ := h.tended.advance henv hd
  rw [h.now] at hunder
  have hattempt : u.attempt env (.advanceTriggering d) = some v := by
    show (TriggeringTestClock.advance env d u).map Prod.snd = some v
    rw [hv]
    rfl
  obtain ⟨called, hcalled⟩ := (stable_trace henv u.trace).attempt henv (List.prefix_refl _) hattempt
  -- the alarm has passed from `τ` to the end
  have hshows := h.shows.elapse hunder
  have hlater : (alarm τ).elapse (τ + d.nanoseconds) = alarm (τ + d.nanoseconds) :=
    Alarm.elapse_elapse (by decide) (by omega)
  rw [Alarm.elapse_recount, hlater] at hshows
  have hcount : v.calls timer = u.calls timer + called.countP (fun call => call.1 = timer) := by
    rw [Sim.calls, ← hcalled, List.countP_append]
    rfl
  have hrings := hshows.calls
  have hnonneg := h.nonneg
  have hbefore := rings_alarm h.nonneg
  have hafter : ((alarm (τ + d.nanoseconds)).rings : ℤ) = (τ + d.nanoseconds) / 500000000 :=
    rings_alarm (by omega)
  refine ⟨v, called, hv, ⟨hunder.tended h.tended hpinned hreleased, hunder.now, by omega, ?_⟩,
    hcalled.symm, ?_⟩
  · rw [hrings]
    exact hshows
  · simp only at hrings
    omega

/-- A callback invoked by hand moves no timer. -/
theorem Punctual.executeCallback (henv : Quiet env) {u : Sim} (h : Punctual u τ) :
    Punctual (u.executeCallback env timer) τ := by
  have hself : u.executeCallback env timer = { u with trace := u.trace ++ [(timer, u.rosTime)] } := by
    simp only [Sim.executeCallback, henv.script, List.foldl_nil]
  have hborn := h.shows.born
  rw [hself]
  obtain ⟨hperiod, hnext, hsilent⟩ := h.shows.ready
  refine ⟨{ h.tended with unborn := fun t ht => ?_ }, h.now, h.nonneg,
    ⟨rfl, ⟨hperiod, hnext, hsilent⟩, hborn, h.shows.timer⟩⟩
  have hne : timer ≠ t := by
    rintro rfl
    exact absurd hborn (by simpa using ht)
  have hnone := h.tended.unborn t ht
  simpa [Sim.calls, hne] using hnone

-- ════════════════════════════════════════════════════════════════════════
-- The mocks
-- ════════════════════════════════════════════════════════════════════════

/-- The publisher is the one entity there is. -/
structure OnlyPublisher (w : World) : Prop where
  tidy : Tidy w
  connected : Connected w
  single : w.entities.next = 1

theorem OnlyPublisher.eq_publisher {w : World} (h : OnlyPublisher w) {e : EntityRef}
    (he : w.entities.alive e = true) : e = publisher := by
  obtain ⟨obj, hobj⟩ := ObjectStore.alive_iff.mp he
  have hlt := ObjectStore.lt_next_of_get? hobj
  rw [h.single] at hlt
  exact Nat.lt_one_iff.mp hlt

/-- A mock that lives is attached. -/
theorem OnlyPublisher.receiver_eq {w : World} (h : OnlyPublisher w)
    (hm : w.mocks.alive m = true) : w.receiver publisher = some m := by
  obtain ⟨mock, hmock⟩ := ObjectStore.alive_iff.mp hm
  rw [h.connected.oneToOne h.tidy]
  exact ⟨mock, hmock, h.eq_publisher (h.connected m mock hmock).1⟩

theorem OnlyPublisher.lt_next {w : World} (h : OnlyPublisher w)
    (hm : w.receiver publisher = some m) : m < w.mocks.next := by
  obtain ⟨mock, hmock, -⟩ := (h.connected.oneToOne h.tidy publisher m).mp hm
  exact ObjectStore.lt_next_of_get? hmock

/-- What a `find*` call and the death of a mock keep. -/
theorem OnlyPublisher.step {w w' : World} (h : OnlyPublisher w) {op : Op}
    (hop : (∃ name, op = .find .publisher stringMsg 0 name) ∨ ∃ m, op = .releaseMock m)
    (hs : w.step op = some w') : OnlyPublisher w' := by
  have horderly : Orderly w op := by
    obtain ⟨name, rfl⟩ | ⟨m, rfl⟩ := hop
    · intro hu
      cases hu
    · trivial
  obtain ⟨htidy, hconn⟩ := orderly_step w op w' ⟨h.tidy, h.connected⟩ horderly hs
  refine ⟨htidy, hconn, Eq.trans ?_ h.single⟩
  cases mockStep_of_step h.tidy.inv hs with
  | still table next => exact next
  | born table k T this n name hborn =>
    obtain ⟨name', rfl⟩ | ⟨m, rfl⟩ := hop <;> cases hborn
  | made k T n name hmade node hn hk e hres obj hobj hkind hfree hT entities => rw [entities]
  | released m hreleased mock hmock entities => rw [entities]
  | reset hreset entities => rw [entities]

/-- The mock is attached to the publisher and pretends `count` subscriptions. -/
structure Attached (s : PublisherNode) (m : MockRef) (count : ℕ) : Prop where
  receiver : s.session.world.receiver publisher = some m
  pretends : s.subscriptionsCount m = count

/-- The mock will never be attached again. -/
structure Gone (s : PublisherNode) (m : MockRef) : Prop where
  receiver : s.session.world.receiver publisher ≠ some m
  old : m < s.session.world.mocks.next

-- ════════════════════════════════════════════════════════════════════════
-- One event
-- ════════════════════════════════════════════════════════════════════════

/-- A mock that is still to be made has recorded nothing. -/
def Fresh (s : PublisherNode) : Prop :=
  ∀ m, s.session.world.mocks.next ≤ m → s.session.recorded m = []

/-- What an event at time `τ` does to the node and to what its mocks have recorded. -/
structure Follows (s s' : PublisherNode) (τ : ℤ) (ev : PublisherEvent) : Prop where
  punctual : Punctual s'.sim (τ + ev.elapses)
  only : OnlyPublisher s'.session.world
  heard : ∀ m count, Attached s m count → ev.hangsUp = false →
    Attached s' m (ev.pretended count) ∧
      s'.session.recorded m = s.session.recorded m ++ record (ev.messages τ count)
  released : ∀ m count, Attached s m count → ev.hangsUp = true →
    Gone s' m ∧ s'.session.recorded m = s.session.recorded m
  gone : ∀ m, Gone s m → Gone s' m ∧ s'.session.recorded m = s.session.recorded m
  fresh : Fresh s → Fresh s'

/-- An event that publishes some messages, those it should if a mock is attached. -/
theorem Follows.of_publishes {u : Sim} {msgs : List String} (hu : Punctual u (τ + ev.elapses))
    (hw : OnlyPublisher s.session.world) (hp : Publishes { s with sim := u } s' msgs)
    (hstays : ev.hangsUp = false)
    (hmsgs : ∀ m count, Attached s m count → ev.pretended count = count ∧
      msgs = ev.messages τ count) : Follows s s' τ ev where
  punctual := by
    rw [hp.sim]
    exact hu
  only := by
    rw [hp.world]
    exact hw
  heard := by
    intro m count h _
    obtain ⟨hcount, rfl⟩ := hmsgs m count h
    refine ⟨⟨?_, ?_⟩, ?_⟩
    · rw [hp.world]
      exact h.receiver
    · rw [hp.subscriptionsCount, hcount]
      exact h.pretends
    · rw [hp.recorded, if_pos h.receiver]
  released := by
    intro m count _ hends
    rw [hstays] at hends
    cases hends
  gone := by
    intro m h
    refine ⟨⟨?_, ?_⟩, ?_⟩
    · rw [hp.world]
      exact h.receiver
    · rw [hp.world]
      exact h.old
    · rw [hp.recorded, if_neg h.receiver, List.append_nil]
  fresh := by
    intro h m hm
    rw [hp.world] at hm
    have hnot : s.session.world.receiver publisher ≠ some m :=
      fun hrec => Nat.not_lt_of_le hm (hw.lt_next hrec)
    rw [hp.recorded, if_neg hnot, List.append_nil]
    exact h m hm

theorem Follows.find (h : Punctual s.sim τ) (hw : OnlyPublisher s.session.world) {name : Name}
    {w : World} (hs : s.session.world.step (.find .publisher stringMsg 0 name) = some w) :
    Follows s
      { s with
        session := ⟨w, s.session.received⟩
        subscriptionsCount := Function.update s.subscriptionsCount s.session.world.mocks.next 0 }
      τ (.findPublisher name) := by
  have hcases := handsOut_cases hw.tidy.inv hw.tidy.mockInv hs
  refine ⟨by simpa [PublisherEvent.elapses] using h, hw.step (Or.inl ⟨name, rfl⟩) hs,
    fun m count ha _ => ⟨⟨?_, ?_⟩, (List.append_nil _).symm⟩, fun m count _ hends => ?_,
    fun m hg => ⟨⟨?_, ?_⟩, rfl⟩, fun hfresh m hm => hfresh m (Nat.le_trans ?_ hm)⟩
  · show w.receiver publisher = some m
    have hattached := ha.receiver
    obtain ⟨-, -, hrec⟩ | ⟨e, -, hfree, -, hrec⟩ := hcases
    · rw [hrec, hattached]
    · have hne : publisher ≠ e := by
        rintro rfl
        rw [hfree] at hattached
        cases hattached
      rw [hrec, if_neg hne, hattached]
  · show Function.update s.subscriptionsCount s.session.world.mocks.next 0 m = count
    rw [Function.update_of_ne (Nat.ne_of_lt (hw.lt_next ha.receiver)), ha.pretends]
  · cases hends
  · show w.receiver publisher ≠ some m
    obtain ⟨-, -, hrec⟩ | ⟨e, -, -, -, hrec⟩ := hcases
    · rw [hrec]
      exact hg.receiver
    · rw [hrec]
      split
      · intro heq
        have hold := hg.old
        rw [Option.some.inj heq] at hold
        exact Nat.lt_irrefl _ hold
      · exact hg.receiver
  · show m < w.mocks.next
    obtain ⟨-, hnext, -⟩ | ⟨e, -, -, hnext, -⟩ := hcases
    · rw [hnext]
      exact hg.old
    · rw [hnext]
      exact Nat.lt_succ_of_lt hg.old
  · show s.session.world.mocks.next ≤ w.mocks.next
    obtain ⟨-, hnext, -⟩ | ⟨e, -, -, hnext, -⟩ := hcases
    · exact Nat.le_of_eq hnext.symm
    · rw [hnext]
      exact Nat.le_succ _

theorem Follows.release (h : Punctual s.sim τ) (hw : OnlyPublisher s.session.world) {m' : MockRef}
    {w : World} (hs : s.session.world.step (.releaseMock m') = some w) :
    Follows s { s with session := ⟨w, s.session.received⟩ } τ (.releaseMock m') := by
  have hen := (World.step_eq_some_iff.mp hs).1
  have horderly : Orderly s.session.world (.releaseMock m') := trivial
  have hmeets := hw.connected.meets hw.tidy.mockInv horderly hen
  have hrec := receiver_releaseMock hw.tidy hmeets.2 hs publisher
  have hattached := hw.receiver_eq hen
  rw [if_pos hattached] at hrec
  have hnext : w.mocks.next = s.session.world.mocks.next := by
    obtain ⟨-, rfl⟩ := World.step_eq_some_iff.mp hs
    exact next_mocks_releaseMock s.session.world m'
  have hgone : ∀ m, m < s.session.world.mocks.next →
      Gone { s with session := ⟨w, s.session.received⟩ } m := by
    intro m hm
    refine ⟨?_, hnext ▸ hm⟩
    show w.receiver publisher ≠ some m
    rw [hrec]
    exact Option.some_ne_none m |>.symm
  refine ⟨by simpa [PublisherEvent.elapses] using h, hw.step (Or.inr ⟨m', rfl⟩) hs,
    fun m count _ hstays => ?_, fun m count ha _ => ⟨hgone m ?_, rfl⟩,
    fun m hg => ⟨hgone m hg.old, rfl⟩, fun hfresh m hm => hfresh m (hnext ▸ hm)⟩
  · cases hstays
  · exact hw.lt_next ha.receiver

theorem Follows.setSubscriptionCount (h : Punctual s.sim τ) (hw : OnlyPublisher s.session.world)
    {m' : MockRef} (hm' : s.session.world.mocks.alive m' = true) (count' : ℕ) :
    Follows s { s with subscriptionsCount := Function.update s.subscriptionsCount m' count' } τ
      (.setSubscriptionCount m' count') := by
  refine ⟨by simpa [PublisherEvent.elapses] using h, hw,
    fun m count ha _ => ⟨⟨ha.receiver, ?_⟩, (List.append_nil _).symm⟩,
    fun m count _ hends => ?_, fun m hg => ⟨⟨hg.receiver, hg.old⟩, rfl⟩, fun hfresh => hfresh⟩
  · -- the mock that lives is the one attached
    have hattached := ha.receiver
    rw [hw.receiver_eq hm'] at hattached
    cases hattached
    exact Function.update_self ..
  · cases hends

/-- **One event.** -/
theorem follows_step (henv : Quiet env) (h : Punctual s.sim τ) (hw : OnlyPublisher s.session.world)
    (hsound : ev.Sound) (hs : s.step env ev = some s') : Follows s s' τ ev := by
  have hstill : Punctual s.sim (τ + 0) := by rwa [Int.add_zero]
  cases ev with
  | advance d =>
    obtain ⟨v, called, hv, hpunctual, htrace, hcount⟩ := h.advance henv hsound
    simp only [step, hv, Option.map_some, Option.some.injEq] at hs
    subst hs
    have hdrop : v.trace.drop s.sim.trace.length = called := by rw [htrace, List.drop_left]
    rw [hdrop]
    refine .of_publishes hpunctual hw (publishes_runCallbacks { s with sim := v } called) rfl
      fun m count _ => ⟨rfl, ?_⟩
    rw [hcount, PublisherEvent.messages]
  | executeCallback =>
    cases hs
    have hmoved : Punctual (s.sim.executeCallback env timer) (τ + 0) := hstill.executeCallback henv
    exact .of_publishes hmoved hw
      (publishes_publish rfl { s with sim := s.sim.executeCallback env timer }) rfl
      fun m count _ => ⟨rfl, rfl⟩
  | publishCopy =>
    cases hs
    exact .of_publishes hstill hw (publishes_publish rfl s) rfl fun m count _ => ⟨rfl, rfl⟩
  | publishUniquePtr =>
    cases hs
    exact .of_publishes hstill hw (publishes_publish rfl s) rfl fun m count _ => ⟨rfl, rfl⟩
  | publishLoanedMsg =>
    cases hs
    exact .of_publishes hstill hw (publishes_publish rfl s) rfl fun m count _ => ⟨rfl, rfl⟩
  | publishIfSubscribersListening matched =>
    cases hs
    have hcounted : ∀ m count, Attached s m count →
        s.getSubscriptionCount matched = matched + count := by
      intro m count ha
      rw [getSubscriptionCount, ha.receiver, ← ha.pretends]
    rw [publishIfSubscribersListening]
    split
    · next hne =>
      refine .of_publishes hstill hw (publishes_publish rfl s) rfl fun m count ha => ⟨rfl, ?_⟩
      rw [hcounted m count ha] at hne
      rw [PublisherEvent.messages, if_neg hne]
    · next heq =>
      refine .of_publishes hstill hw (.refl s) rfl fun m count ha => ⟨rfl, ?_⟩
      rw [hcounted m count ha, ne_eq, not_not] at heq
      rw [PublisherEvent.messages, if_pos heq]
  | findPublisher name =>
    simp only [step, Option.map_eq_some_iff] at hs
    obtain ⟨session, hsession, rfl⟩ := hs
    obtain ⟨hen, rfl⟩ := Session.step_eq_some_iff.mp hsession
    exact .find h hw (World.step_eq_some_iff.mpr ⟨hen, rfl⟩)
  | releaseMock m' =>
    simp only [step, Option.map_eq_some_iff] at hs
    obtain ⟨session, hsession, rfl⟩ := hs
    obtain ⟨hen, rfl⟩ := Session.step_eq_some_iff.mp hsession
    exact .release h hw (World.step_eq_some_iff.mpr ⟨hen, rfl⟩)
  | setSubscriptionCount m' count' =>
    simp only [step] at hs
    split at hs
    · next hm' =>
      cases hs
      exact .setSubscriptionCount h hw hm' count'
    · cases hs

-- ════════════════════════════════════════════════════════════════════════
-- A run
-- ════════════════════════════════════════════════════════════════════════

/-- By how much the events move the clock. -/
def elapsed : List PublisherEvent → ℤ
  | [] => 0
  | ev :: evs => ev.elapses + elapsed evs

theorem keeps_run (henv : Quiet env) (h : Punctual s.sim τ) (hw : OnlyPublisher s.session.world)
    (hfresh : Fresh s) (hsound : ∀ ev ∈ evs, ev.Sound)
    (hrun : Runs.run (step env) s evs = some s') :
    Punctual s'.sim (τ + elapsed evs) ∧ OnlyPublisher s'.session.world ∧ Fresh s' := by
  induction evs generalizing s τ with
  | nil =>
    cases hrun
    exact ⟨by rwa [elapsed, Int.add_zero], hw, hfresh⟩
  | cons ev evs ih =>
    obtain ⟨u, hu, hrest⟩ := Runs.run_cons_eq_some_iff.mp hrun
    have hstep := follows_step henv h hw (hsound ev List.mem_cons_self) hu
    have hlast := ih hstep.punctual hstep.only (hstep.fresh hfresh)
      (fun ev' hev' => hsound ev' (.tail ev hev')) hrest
    rwa [Int.add_assoc] at hlast

/-- A mock that is gone records nothing more. -/
theorem recorded_of_gone (henv : Quiet env) (h : Punctual s.sim τ)
    (hw : OnlyPublisher s.session.world) (hg : Gone s m) (hsound : ∀ ev ∈ evs, ev.Sound)
    (hrun : Runs.run (step env) s evs = some s') :
    s'.session.recorded m = s.session.recorded m := by
  induction evs generalizing s τ with
  | nil =>
    cases hrun
    rfl
  | cons ev evs ih =>
    obtain ⟨u, hu, hrest⟩ := Runs.run_cons_eq_some_iff.mp hrun
    have hstep := follows_step henv h hw (hsound ev List.mem_cons_self) hu
    obtain ⟨hgone, hsame⟩ := hstep.gone m hg
    rw [ih hstep.punctual hstep.only hgone (fun ev' hev' => hsound ev' (.tail ev hev')) hrest, hsame]

/-- **What an attached mock records**, by induction over the run. -/
theorem recorded_of_attached (henv : Quiet env) (h : Punctual s.sim τ)
    (hw : OnlyPublisher s.session.world) (ha : Attached s m count) (hsound : ∀ ev ∈ evs, ev.Sound)
    (hrun : Runs.run (step env) s evs = some s') :
    s'.session.recorded m = s.session.recorded m ++ record (published τ count evs) := by
  induction evs generalizing s τ count with
  | nil =>
    cases hrun
    exact (List.append_nil _).symm
  | cons ev evs ih =>
    obtain ⟨u, hu, hrest⟩ := Runs.run_cons_eq_some_iff.mp hrun
    have hlater : ∀ ev' ∈ evs, ev'.Sound := fun ev' hev' => hsound ev' (.tail ev hev')
    have hstep := follows_step henv h hw (hsound ev List.mem_cons_self) hu
    rw [published]
    cases hends : ev.hangsUp with
    | true =>
      obtain ⟨hgone, hsame⟩ := hstep.released m count ha hends
      rw [recorded_of_gone henv hstep.punctual hstep.only hgone hlater hrest, hsame]
      exact (List.append_nil _).symm
    | false =>
      obtain ⟨hattached, hmore⟩ := hstep.heard m count ha hends
      rw [ih hstep.punctual hstep.only hattached hlater hrest, hmore]
      simp [record]

theorem punctual_start (henv : Quiet env) (hrnd : RelError doubleError rnd) (node : Node)
    (this : Addr) : Punctual (start env rnd node this).sim 0 := by
  have hnode := Sim.tended_freshNode node.controlBlock 0
  have hsound : (NodeEvent.createTimer timerRequest).Sound := by
    simp [NodeEvent.Sound, timerRequest, nanosecondsMax]
  have hcast : safeCastToPeriodInNs rnd 1000000 500 = .ok (500 * 1000000) :=
    safeCastToPeriodInNs_of_le hrnd (by decide) (by decide) (by decide)
  obtain ⟨u, hcreate⟩ : ∃ u, Sim.createTimer env rnd timerRequest (.freshNode node.controlBlock 0) =
      (.ok timer, u) := by
    simp only [Sim.createTimer, Sim.createTimerOn, timerRequest, Bool.not_true, Bool.false_eq_true,
      if_false, Nat.cast_ofNat, hcast]
    exact ⟨_, rfl⟩
  obtain ⟨hnow, hshows⟩ := Sim.shows_createTimer henv hrnd hnode hsound hcreate
  have htended : u.Tended := by
    obtain ⟨v, hv, htended, -⟩ := hnode.handle henv hrnd hsound
    rw [Sim.handle, hcreate] at hv
    cases hv
    exact htended
  have hzero : u.now = 0 := hnow
  -- the clock takes over at zero, where it stood
  have hstart : (start env rnd node this).sim = { u with now := 0 }.overridden env 0 := by
    rw [start, hcreate, TriggeringTestClock.construct_ok (henv.writes _) rfl rfl]
  have htimers : ({ u with now := 0 }.overridden env 0).timers = u.timers :=
    Sim.overridden_forward henv (by rw [← hzero]; exact htended.rosTime.le)
  rw [hstart]
  refine ⟨⟨rfl, htended.pinned, htended.released, ?_, ?_, ?_⟩, rfl, le_rfl, ?_⟩
  · rw [htimers]
    exact htended.listed
  · rw [htimers]
    exact htended.period
  · rw [htimers]
    exact htended.unborn
  · obtain ⟨hcalls, hready, hborn, hget⟩ := hshows
    have hperiod : timerRequest.period.nanoseconds = 500000000 := rfl
    rw [hzero, hperiod] at hcalls hready hget
    have halarm : alarm 0 = Alarm.wind 0 500000000 true := hready.elapse_self
    rw [halarm]
    refine ⟨rfl, ⟨hready.period, hready.next, hready.silent⟩, ?_, ?_⟩
    · rw [htimers]
      exact hborn
    · rw [htimers]
      exact hget

theorem onlyPublisher_start (node : Node) (this : Addr) :
    OnlyPublisher (start env rnd node this).session.world := by
  have hnode : World.init.step (.createNode node) = some (World.init.act (.createNode node)) :=
    World.step_eq_some_iff.mpr ⟨rfl, rfl⟩
  have hentity : (World.init.act (.createNode node)).step
      (.createEntity .publisher stringMsg this 0 (expandTopicName node "test_topic".toList)) =
        some (start env rnd node this).session.world :=
    World.step_eq_some_iff.mpr ⟨rfl, rfl⟩
  have hfirst := orderly_step _ (.createNode node) _ ⟨tidy_init, connected_init⟩ trivial hnode
  obtain ⟨htidy, hconn⟩ := orderly_step _ (.createEntity ..) _ hfirst trivial hentity
  exact ⟨htidy, hconn, rfl⟩

/-- A message is published, and time passes, before the mock is there. -/
def beforehand : List PublisherEvent := [.publishCopy, .advance ⟨700, 1000000⟩]

/-- A test with the mock. -/
def rehearsal : List PublisherEvent :=
  [.advance ⟨1, 1000000000⟩, .publishUniquePtr, .publishIfSubscribersListening 0,
    .setSubscriptionCount 0 1, .publishIfSubscribersListening 0, .publishLoanedMsg,
    .executeCallback, .releaseMock 0, .publishCopy]

/-- The node in a process of its own. -/
def rehearsed : PublisherNode :=
  start plainEnv (roundNearest 53) ⟨1, 100, "/".toList, "test_publisher".toList⟩ 10

/-- Of 1.7 s, the mock sees the end of the second and third period. -/
example : published (elapsed beforehand) 0 rehearsal =
    ["timer", "timer", "unique_ptr", "if_subscribers_listening", "loaned_msg", "timer"] := by
  decide

end PublisherNode

end Rtest
