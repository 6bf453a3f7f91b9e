import Aeterna.Lib.KeyedFold
import Aeterna.Lib.Runs
import Mathlib.Logic.Function.Basic

namespace Aeterna.Events
open Lib (run)
open List

structure StreamEntry where
  id : Nat
  event : String

structure EventStream where
  entries : List StreamEntry := []
  increasing : entries.Pairwise (fun a b => a.id < b.id) := by exact List.Pairwise.nil

namespace EventStream

def lastId (s : EventStream) : Nat := (s.entries.getLast?.map StreamEntry.id).getD 0

theorem le_lastId {s : EventStream} {e : StreamEntry} (member : e ∈ s.entries) : e.id ≤ s.lastId := by
  have increasing := s.increasing
  unfold lastId
  rcases eq_nil_or_concat s.entries with empty | ⟨front, last, split⟩
  · rw [empty] at member
    exact absurd member not_mem_nil
  · rw [concat_eq_append] at split
    rw [split] at member increasing ⊢
    rw [getLast?_concat]
    rcases mem_append.mp member with before | here
    · exact Nat.le_of_lt ((pairwise_append.mp increasing).2.2 e before last (mem_singleton_self _))
    · rw [mem_singleton.mp here]
      exact Nat.le_refl _

/-- `XADD`, with the id that the server draws. -/
def add (s : EventStream) (id : Nat) (event : String) (next : s.lastId < id) : EventStream where
  entries := s.entries ++ [⟨id, event⟩]
  increasing := pairwise_append.mpr ⟨s.increasing, pairwise_singleton _ _, fun e member other here => by
    rw [mem_singleton.mp here]
    exact Nat.lt_of_le_of_lt (le_lastId member) next⟩

theorem add_lastId (s : EventStream) (id : Nat) (event : String) (next : s.lastId < id) :
    (s.add id event next).lastId = id := by
  simp [add, lastId]

def after (s : EventStream) (position : Nat) : List StreamEntry :=
  (s.entries.filter (fun e => position < e.id)).take 10

end EventStream

/-- How events are told apart and put into JSON. -/
structure EventCodec (P : Type) where
  (tenantId toString : P → String)
  fromStr : String → Option P

def EventCodec.streamKey {P : Type} (codec : EventCodec P) (event : P) : String :=
  "governance:events:" ++ codec.tenantId event

/-- `$`, or the id of an entry. -/
inductive Position where
  | latest
  | id (n : Nat)

def Position.resolve (s : EventStream) : Position → Nat
  | latest => s.lastId
  | id n => n

/-- Where the loop is: before `xread_options`, inside it with the ids that it reads from, or at the records of
a reply, each with the index of its stream in the reply. -/
inductive ReadPhase where
  | idle
  | reading (request : List (String × Nat))
  | sending (records : List (Nat × StreamEntry))

structure Subscription (P : Type) where
  streams : String → EventStream
  lastIds : List Position
  phase : ReadPhase := .idle
  sent : List P := []
  /-- The lengths of the streams when the loop read for the first time. -/
  atFirstRead : Option (String → Nat) := none

inductive SubscriptionStep (P : Type) where
  | publish (event : P) (id : Nat)
  | startRead
  | reply
  | send

def SubscriptionStep.ofLoop {P : Type} : SubscriptionStep P → Bool
  | publish _ _ => false
  | startRead | reply | send => true

namespace Subscription
variable {P : Type} (codec : EventCodec P) (channels : List String)

/-- `subscribe`: the loop is spawned, and has read nothing. -/
def init (streams : String → EventStream) : Subscription P where
  streams := streams
  lastIds := replicate channels.length .latest

def keys (s : Subscription P) (request : List (String × Nat)) : List (List StreamEntry) :=
  (request.map (fun q => (s.streams q.1).after q.2)).filter (fun news => !news.isEmpty)

def records (s : Subscription P) (request : List (String × Nat)) : List (Nat × StreamEntry) :=
  (s.keys request).zipIdx.flatMap (fun stream => stream.1.map (fun record => (stream.2, record)))

def step (s : Subscription P) : SubscriptionStep P → Option (Subscription P)
  | .publish event id =>
    if next : (s.streams (codec.streamKey event)).lastId < id then
      some { s with
        streams := Function.update s.streams (codec.streamKey event)
          ((s.streams (codec.streamKey event)).add id (codec.toString event) next) }
    else none
  | .startRead =>
    match s.phase with
    | .idle => some { s with
        phase := .reading ((channels.zip s.lastIds).map (fun q => (q.1, q.2.resolve (s.streams q.1))))
        atFirstRead := some (s.atFirstRead.getD (fun channel => (s.streams channel).entries.length)) }
    | _ => none
  | .reply =>
    match s.phase with
    | .reading request => if (s.records request).isEmpty then none
        else some { s with phase := .sending (s.records request) }
    | _ => none
  | .send =>
    match s.phase with
    | .sending ((i, record) :: rest) => some { s with
        sent := s.sent ++ (codec.fromStr record.event).toList
        lastIds := s.lastIds.set i (.id record.id)
        phase := if rest.isEmpty then .idle else .sending rest }
    | _ => none

def added (s : Subscription P) (channel : String) : List P :=
  match s.atFirstRead with
  | none => []
  | some lengths => ((s.streams channel).entries.drop (lengths channel)).filterMap (fun e => codec.fromStr e.event)

def sentOf (s : Subscription P) (channel : String) : List P :=
  s.sent.filter (fun event => codec.streamKey event = channel)

/-- In every run what was sent of a stream is what was added to it, in order, up to some event; the rest is
sent once the loop has taken enough steps, and the loop is not stuck before. -/
structure Delivers : Prop where
  once : ∀ streams labels s, run (step codec channels) (init channels streams) labels = some s →
    ∀ channel ∈ channels, s.sentOf codec channel <+: s.added codec channel
  all : ∀ streams labels s, run (step codec channels) (init channels streams) labels = some s →
    ∃ n, ∀ more later, run (step codec channels) s more = some later → n ≤ more.countP SubscriptionStep.ofLoop →
      ∀ channel ∈ channels, s.added codec channel <+: later.sentOf codec channel
  goes : ∀ streams labels s, run (step codec channels) (init channels streams) labels = some s →
    (∃ channel ∈ channels, s.sentOf codec channel ≠ s.added codec channel) →
      ∃ label, label.ofLoop = true ∧ (step codec channels s label).isSome

end Subscription

section
variable {P : Type} {codec : EventCodec P} {channel : String} {others : List String}

structure Divides (front back : List StreamEntry) (position last : Nat) : Prop where
  below : ∀ e ∈ front, e.id ≤ position
  above : ∀ e ∈ back, position < e.id
  drawn : position ≤ last

theorem Divides.after {s : EventStream} {front back : List StreamEntry} {position : Nat}
    (split : s.entries = front ++ back) (divides : Divides front back position s.lastId) :
    s.after position = back.take 10 := by
  unfold EventStream.after
  rw [split, filter_append]
  have passed : front.filter (fun e => position < e.id) = [] := by
    apply filter_eq_nil_iff.mpr
    intro e member
    have low := divides.below e member
    simp only [decide_eq_true_eq]
    omega
  have news : back.filter (fun e => position < e.id) = back :=
    filter_eq_self.mpr (fun e member => decide_eq_true (divides.above e member))
  rw [passed, news, nil_append]

/-- The loop has not read yet. -/
structure Fresh (others : List String) (s : Subscription P) : Prop where
  idle : s.phase = .idle
  latest : s.lastIds = .latest :: replicate others.length .latest
  unread : s.atFirstRead = none
  unsent : s.sent = []

structure FollowsFirst (codec : EventCodec P) (channel : String) (others : List String) (s : Subscription P)
    (old done todo : List StreamEntry) : Prop where
  split : (s.streams channel).entries = (old ++ done) ++ todo
  sent : done.map (fun e => codec.fromStr e.event) = s.sent.map some
  own : ∀ event ∈ s.sent, codec.streamKey event = channel
  readable : ∀ e ∈ todo, ∃ event, codec.fromStr e.event = some event ∧ codec.streamKey event = channel
  lengths : ∃ lengths, s.atFirstRead = some lengths ∧ lengths channel = old.length ∧
    ∀ name ∈ others, lengths name = (s.streams name).entries.length
  positions : ∃ first, s.lastIds = first :: replicate others.length .latest ∧
    (s.phase = .idle → ∃ position, first = .id position ∧
      Divides (old ++ done) todo position (s.streams channel).lastId)
  request : ∀ request, s.phase = .reading request → ∃ position,
    request = (channel, position) :: others.map (fun name => (name, (s.streams name).lastId)) ∧
      Divides (old ++ done) todo position (s.streams channel).lastId
  records : ∀ records, s.phase = .sending records → records ≠ [] ∧ records.map Prod.snd <+: todo ∧
    ∀ r ∈ records, r.1 = 0

def ReadPhase.stage : ReadPhase → Nat
  | idle => 0
  | reading _ => 1
  | sending _ => 2

variable {s next : Subscription P} {old done todo : List StreamEntry}

theorem zip_latest (s : Subscription P) (others : List String) :
    (others.zip (replicate others.length Position.latest)).map (fun q => (q.1, q.2.resolve (s.streams q.1))) =
      others.map (fun name => (name, (s.streams name).lastId)) := by
  induction others with
  | nil => rfl
  | cons name rest ih =>
    rw [length_cons, replicate_succ, zip_cons_cons, map_cons, map_cons, ih]
    rfl

theorem EventStream.after_lastId (s : EventStream) : s.after s.lastId = [] := by
  unfold EventStream.after
  rw [filter_eq_nil_iff.mpr, take_nil]
  intro e member
  have low := EventStream.le_lastId member
  simp only [decide_eq_true_eq]
  omega

variable {id : Nat} {labels : List (SubscriptionStep P)}

theorem step_publish {event : P} {channels : List String}
    (stepped : Subscription.step codec channels s (.publish event id) = some next) :
    ∃ drawn : (s.streams (codec.streamKey event)).lastId < id, next = { s with
      streams := Function.update s.streams (codec.streamKey event)
        ((s.streams (codec.streamKey event)).add id (codec.toString event) drawn) } := by
  unfold Subscription.step at stepped
  dsimp only at stepped
  split at stepped
  · rename_i drawn
    exact ⟨drawn, (Option.some.inj stepped).symm⟩
  · cases stepped

theorem Fresh.publish {event : P} {channels : List String} (fresh : Fresh others s)
    (stepped : Subscription.step codec channels s (.publish event id) = some next) : Fresh others next := by
  obtain ⟨_, rfl⟩ := step_publish stepped
  exact ⟨fresh.idle, fresh.latest, fresh.unread, fresh.unsent⟩

theorem Fresh.startRead (fresh : Fresh others s)
    (stepped : Subscription.step codec (channel :: others) s .startRead = some next) :
    FollowsFirst codec channel others next (s.streams channel).entries [] [] := by
  unfold Subscription.step at stepped
  rw [fresh.idle] at stepped
  obtain rfl := Option.some.inj stepped
  have divides : Divides ((s.streams channel).entries ++ []) []
      (s.streams channel).lastId (s.streams channel).lastId := by
    rw [append_nil]
    exact ⟨fun _ => EventStream.le_lastId, fun _ absent => absurd absent not_mem_nil, Nat.le_refl _⟩
  constructor
  · simp
  · rw [fresh.unsent]
    rfl
  · rw [fresh.unsent]
    exact fun _ absent => absurd absent not_mem_nil
  · exact fun _ absent => absurd absent not_mem_nil
  · rw [fresh.unread]
    exact ⟨_, rfl, rfl, fun _ _ => rfl⟩
  · exact ⟨.latest, fresh.latest, nofun⟩
  · rintro request ⟨⟩
    refine ⟨(s.streams channel).lastId, ?_, divides⟩
    rw [fresh.latest, zip_cons_cons, map_cons, zip_latest]
    rfl
  · exact nofun

theorem FollowsFirst.publish {event : P} {channels : List String}
    (follows : FollowsFirst codec channel others s old done todo)
    (lossless : ∀ event, codec.fromStr (codec.toString event) = some event)
    (quiet : ∀ name ∈ others, ∀ event, codec.streamKey event ≠ name)
    (stepped : Subscription.step codec channels s (.publish event id) = some next) :
    ∃ more, FollowsFirst codec channel others next old done (todo ++ more) ∧ next.phase = s.phase := by
  obtain ⟨drawn, rfl⟩ := step_publish stepped
  have still : ∀ name ∈ others, ∀ stream, Function.update s.streams (codec.streamKey event) stream name =
      s.streams name :=
    fun name member stream => Function.update_of_ne (Ne.symm (quiet name member event)) _ _
  obtain ⟨more, grown, readable, divides⟩ : ∃ more : List StreamEntry,
      (Function.update s.streams (codec.streamKey event)
        ((s.streams (codec.streamKey event)).add id (codec.toString event) drawn) channel).entries =
        (s.streams channel).entries ++ more ∧
      (∀ e ∈ more, ∃ event, codec.fromStr e.event = some event ∧ codec.streamKey event = channel) ∧
      ∀ front position, Divides front todo position (s.streams channel).lastId → Divides front (todo ++ more) position
        (Function.update s.streams (codec.streamKey event)
          ((s.streams (codec.streamKey event)).add id (codec.toString event) drawn) channel).lastId := by
    by_cases here : codec.streamKey event = channel
    · subst here
      rw [Function.update_self]
      refine ⟨[⟨id, codec.toString event⟩], rfl, ?_, fun front position divides =>
        ⟨divides.below, fun e member => ?_, ?_⟩⟩
      · intro e member
        rw [mem_singleton.mp member]
        exact ⟨event, lossless event, rfl⟩
      · rcases mem_append.mp member with before | new
        · exact divides.above e before
        · rw [mem_singleton.mp new]
          exact Nat.lt_of_le_of_lt divides.drawn drawn
      · rw [EventStream.add_lastId]
        exact Nat.le_of_lt (Nat.lt_of_le_of_lt divides.drawn drawn)
    · rw [Function.update_of_ne (Ne.symm here)]
      refine ⟨[], (append_nil _).symm, fun _ absent => absurd absent not_mem_nil,
        fun front position divides => ?_⟩
      rw [append_nil]
      exact divides
  refine ⟨more, ?_, rfl⟩
  obtain ⟨lengths, read, length, unchanged⟩ := follows.lengths
  obtain ⟨first, positions, here⟩ := follows.positions
  constructor
  · rw [← append_assoc, ← follows.split]
    exact grown
  · exact follows.sent
  · exact follows.own
  · intro e member
    exact (mem_append.mp member).elim (follows.readable e) (readable e)
  · refine ⟨lengths, read, length, fun name member => ?_⟩
    dsimp only
    rw [still name member]
    exact unchanged name member
  · refine ⟨first, positions, fun idle => ?_⟩
    obtain ⟨position, same, between⟩ := here idle
    exact ⟨position, same, divides _ _ between⟩
  · intro request reading
    obtain ⟨position, same, between⟩ := follows.request request reading
    refine ⟨position, ?_, divides _ _ between⟩
    rw [same]
    congr 1
    apply map_congr_left
    intro name member
    dsimp only
    rw [still name member]
  · intro records sending
    obtain ⟨some, inside, zero⟩ := follows.records records sending
    exact ⟨some, inside.trans (prefix_append _ _), zero⟩

section
variable (follows : FollowsFirst codec channel others s old done todo)
include follows

theorem FollowsFirst.startRead (stepped : Subscription.step codec (channel :: others) s .startRead = some next) :
    FollowsFirst codec channel others next old done todo ∧ s.phase.stage < next.phase.stage := by
  unfold Subscription.step at stepped
  cases phase : s.phase with
  | reading request =>
    rw [phase] at stepped
    cases stepped
  | sending records =>
    rw [phase] at stepped
    cases stepped
  | idle =>
    rw [phase] at stepped
    obtain rfl := Option.some.inj stepped
    obtain ⟨lengths, read, length, unchanged⟩ := follows.lengths
    obtain ⟨first, positions, here⟩ := follows.positions
    obtain ⟨position, rfl, between⟩ := here phase
    refine ⟨⟨follows.split, follows.sent, follows.own, follows.readable, ?_, ⟨_, positions, nofun⟩, ?_, nofun⟩,
      Nat.lt_succ_self 0⟩
    · rw [read]
      exact ⟨lengths, rfl, length, unchanged⟩
    · rintro request ⟨⟩
      refine ⟨position, ?_, between⟩
      rw [positions, zip_cons_cons, map_cons, zip_latest]
      rfl

theorem FollowsFirst.records_eq {request : List (String × Nat)} (reading : s.phase = .reading request) :
    s.records request = (todo.take 10).map (fun record => (0, record)) := by
  obtain ⟨position, rfl, between⟩ := follows.request request reading
  have silent : ((others.map (fun name => (name, (s.streams name).lastId))).map
      (fun q => (s.streams q.1).after q.2)).filter
      (fun news => !news.isEmpty) = [] := by
    apply filter_eq_nil_iff.mpr
    intro news member
    obtain ⟨q, inside, rfl⟩ := mem_map.mp member
    obtain ⟨name, _, rfl⟩ := mem_map.mp inside
    rw [EventStream.after_lastId]
    decide
  unfold Subscription.records Subscription.keys
  rw [map_cons, filter_cons, silent, between.after follows.split]
  cases todo with
  | nil => rfl
  | cons e rest => simp

theorem FollowsFirst.reply (stepped : Subscription.step codec (channel :: others) s .reply = some next) :
    FollowsFirst codec channel others next old done todo ∧ s.phase.stage < next.phase.stage := by
  unfold Subscription.step at stepped
  cases phase : s.phase with
  | idle =>
    rw [phase] at stepped
    cases stepped
  | sending records =>
    rw [phase] at stepped
    cases stepped
  | reading request =>
    rw [phase] at stepped
    dsimp only at stepped
    have records := follows.records_eq phase
    split at stepped
    · cases stepped
    · rename_i filled
      obtain rfl := Option.some.inj stepped
      obtain ⟨first, positions, _⟩ := follows.positions
      refine ⟨⟨follows.split, follows.sent, follows.own, follows.readable, follows.lengths, ⟨first, positions, nofun⟩,
        nofun, ?_⟩, Nat.lt_succ_self 1⟩
      rintro _ ⟨⟩
      refine ⟨fun empty => filled (by rw [empty]; rfl), ?_, ?_⟩
      · rw [records, map_map, show (Prod.snd ∘ fun record : StreamEntry => ((0 : Nat), record)) = fun record =>
          record from rfl, map_id']
        exact take_prefix _ _
      · intro r member
        rw [records] at member
        obtain ⟨_, _, rfl⟩ := mem_map.mp member
        rfl

theorem FollowsFirst.send (stepped : Subscription.step codec (channel :: others) s .send = some next) :
    ∃ record rest, todo = record :: rest ∧ FollowsFirst codec channel others next old (done ++ [record]) rest := by
  unfold Subscription.step at stepped
  cases phase : s.phase with
  | idle =>
    rw [phase] at stepped
    cases stepped
  | reading request =>
    rw [phase] at stepped
    cases stepped
  | sending records =>
    rw [phase] at stepped
    obtain ⟨some, inside, zero⟩ := follows.records records phase
    obtain ⟨⟨i, record⟩, later, rfl⟩ := exists_cons_of_ne_nil some
    obtain ⟨rest, rfl⟩ : ∃ rest, todo = record :: rest := by
      obtain ⟨tail, same⟩ := inside
      exact ⟨_, same.symm⟩
    obtain rfl : i = 0 := zero _ mem_cons_self
    obtain rfl := Option.some.inj stepped
    obtain ⟨event, decoded, own⟩ := follows.readable record mem_cons_self
    obtain ⟨first, positions, _⟩ := follows.positions
    have order := (s.streams channel).increasing
    rw [follows.split] at order
    obtain ⟨_, ahead, before⟩ := pairwise_append.mp order
    have split : (s.streams channel).entries = (old ++ (done ++ [record])) ++ rest := by
      rw [follows.split]
      simp
    have behind : Divides (old ++ (done ++ [record])) rest record.id (s.streams channel).lastId := by
      refine ⟨fun e member => ?_, fun e member => rel_of_pairwise_cons ahead member, EventStream.le_lastId ?_⟩
      · rw [← append_assoc] at member
        rcases mem_append.mp member with earlier | here
        · exact Nat.le_of_lt (before e earlier record mem_cons_self)
        · obtain rfl := mem_singleton.mp here
          exact Nat.le_refl _
      · rw [split]
        simp
    refine ⟨record, rest, rfl, split, ?_, ?_, fun e member => follows.readable e (mem_cons_of_mem _ member),
      follows.lengths, ?_, ?_, ?_⟩
    · rw [map_append, follows.sent]
      simp [decoded]
    · intro other member
      rw [decoded] at member
      rcases mem_append.mp member with earlier | here
      · exact follows.own other earlier
      · rw [mem_singleton.mp here]
        exact own
    · refine ⟨.id record.id, ?_, fun _ => ⟨record.id, rfl, behind⟩⟩
      dsimp only
      rw [positions]
      rfl
    · intro request reading
      dsimp only at reading
      split at reading <;> cases reading
    · intro records sending
      dsimp only at sending
      split at sending
      · cases sending
      · rename_i filled
        obtain rfl := ReadPhase.sending.inj sending
        refine ⟨fun empty => filled (by rw [empty]; rfl), ?_, fun r member => zero r (mem_cons_of_mem _ member)⟩
        exact (cons_prefix_cons.mp inside).2

end

theorem FollowsFirst.step {label : SubscriptionStep P} (follows : FollowsFirst codec channel others s old done todo)
    (lossless : ∀ event, codec.fromStr (codec.toString event) = some event)
      (quiet : ∀ name ∈ others, ∀ event, codec.streamKey event ≠ name)
    (stepped : Subscription.step codec (channel :: others) s label = some next) :
    ∃ done' todo', FollowsFirst codec channel others next old done' todo' ∧ done ++ todo <+: done' ++ todo' ∧
      3 * done.length + s.phase.stage + (if label.ofLoop then 1 else 0) ≤ 3 * done'.length + next.phase.stage := by
  cases label with
  | publish event id =>
    obtain ⟨more, follows, same⟩ := follows.publish lossless quiet stepped
    refine ⟨done, todo ++ more, follows, ?_, by rw [same]; simp [SubscriptionStep.ofLoop]⟩
    rw [← append_assoc]
    exact prefix_append _ _
  | startRead =>
    obtain ⟨follows, later⟩ := follows.startRead stepped
    exact ⟨done, todo, follows, prefix_rfl, by simp only [SubscriptionStep.ofLoop, if_true]; omega⟩
  | reply =>
    obtain ⟨follows, later⟩ := follows.reply stepped
    exact ⟨done, todo, follows, prefix_rfl, by simp only [SubscriptionStep.ofLoop, if_true]; omega⟩
  | send =>
    obtain ⟨record, rest, rfl, sent⟩ := follows.send stepped
    refine ⟨done ++ [record], rest, sent, by simp, ?_⟩
    have low : s.phase.stage ≤ 2 := by cases s.phase <;> simp [ReadPhase.stage]
    rw [length_append, length_singleton]
    simp only [SubscriptionStep.ofLoop, if_true]
    omega

theorem FollowsFirst.run (follows : FollowsFirst codec channel others s old done todo)
    (lossless : ∀ event, codec.fromStr (codec.toString event) = some event)
    (quiet : ∀ name ∈ others, ∀ event, codec.streamKey event ≠ name)
    (ran : run (Subscription.step codec (channel :: others)) s labels = some next) :
    ∃ done' todo', FollowsFirst codec channel others next old done' todo' ∧ done ++ todo <+: done' ++ todo' ∧
      3 * done.length + s.phase.stage + labels.countP SubscriptionStep.ofLoop ≤ 3 * done'.length +
        next.phase.stage := by
  induction labels generalizing s done todo with
  | nil =>
    cases ran
    exact ⟨done, todo, follows, prefix_rfl, Nat.le_refl _⟩
  | cons label rest ih =>
    obtain ⟨between, first, ran⟩ := Lib.run_cons.mp ran
    obtain ⟨done₁, todo₁, follows, grown, gain⟩ := follows.step lossless quiet first
    obtain ⟨done₂, todo₂, follows, grown', gain'⟩ := ih follows ran
    refine ⟨done₂, todo₂, follows, grown.trans grown', ?_⟩
    rw [countP_cons]
    omega

theorem reached {streams : String → EventStream}
    (lossless : ∀ event, codec.fromStr (codec.toString event) = some event)
    (quiet : ∀ name ∈ others, ∀ event, codec.streamKey event ≠ name)
    (ran : run (Subscription.step codec (channel :: others))
    (Subscription.init (channel :: others) streams) labels = some s) :
    Fresh others s ∨ ∃ old done todo, FollowsFirst codec channel others s old done todo := by
  refine Lib.run_keeps (P := fun _ _ => True)
    (I := fun s => Fresh others s ∨ ∃ old done todo, FollowsFirst codec channel others s old done todo)
    ?_ (.inl ⟨rfl, rfl, rfl, rfl⟩) (Lib.along_of_forall (fun _ _ => trivial)) ran
  rintro s label next (fresh | ⟨old, done, todo, follows⟩) _ stepped
  · cases label with
    | publish event id => exact .inl (fresh.publish stepped)
    | startRead => exact .inr ⟨_, _, _, fresh.startRead stepped⟩
    | reply =>
      unfold Subscription.step at stepped
      rw [fresh.idle] at stepped
      cases stepped
    | send =>
      unfold Subscription.step at stepped
      rw [fresh.idle] at stepped
      cases stepped
  · obtain ⟨done', todo', follows, _⟩ := follows.step lossless quiet stepped
    exact .inr ⟨old, done', todo', follows⟩

theorem Fresh.nothing (fresh : Fresh others s) (name : String) : s.added codec name = [] ∧
    s.sentOf codec name = [] := by
  unfold Subscription.added Subscription.sentOf
  rw [fresh.unread, fresh.unsent]
  exact ⟨rfl, rfl⟩

theorem filterMap_of_map {entries : List StreamEntry} {events : List P}
    (decoded : entries.map (fun e => codec.fromStr e.event) = events.map some) :
    entries.filterMap (fun e => codec.fromStr e.event) = events := by
  have same := congrArg (filterMap id) decoded
  simpa [filterMap_map, Function.comp_def] using same

section
variable (follows : FollowsFirst codec channel others s old done todo)
include follows

theorem FollowsFirst.sentOf : s.sentOf codec channel = done.filterMap (fun e => codec.fromStr e.event) := by
  unfold Subscription.sentOf
  rw [filterMap_of_map follows.sent]
  exact filter_eq_self.mpr (fun event member => decide_eq_true (follows.own event member))

theorem FollowsFirst.added : s.added codec channel = (done ++ todo).filterMap (fun e => codec.fromStr e.event) := by
  obtain ⟨lengths, read, length, _⟩ := follows.lengths
  unfold Subscription.added
  rw [read]
  dsimp only
  rw [length, follows.split, append_assoc, drop_left]

theorem FollowsFirst.elsewhere (quiet : ∀ name ∈ others, ∀ event, codec.streamKey event ≠ name) {name : String} (member : name ∈ others) :
    s.added codec name = [] ∧ s.sentOf codec name = [] := by
  obtain ⟨lengths, read, _, unchanged⟩ := follows.lengths
  constructor
  · unfold Subscription.added
    rw [read]
    dsimp only
    rw [unchanged name member, drop_length]
    rfl
  · exact filter_eq_nil_iff.mpr (fun event _ => by simpa using quiet name member event)

theorem FollowsFirst.goes (some : todo ≠ []) :
    ∃ label, label.ofLoop = true ∧ (Subscription.step codec (channel :: others) s label).isSome := by
  cases phase : s.phase with
  | idle =>
    refine ⟨.startRead, rfl, ?_⟩
    unfold Subscription.step
    rw [phase]
    rfl
  | reading request =>
    have filled : (s.records request).isEmpty = false := by
      rw [follows.records_eq phase]
      obtain ⟨e, rest, rfl⟩ := exists_cons_of_ne_nil some
      rfl
    refine ⟨.reply, rfl, ?_⟩
    unfold Subscription.step
    rw [phase]
    dsimp only
    rw [filled]
    rfl
  | sending records =>
    obtain ⟨filled, _⟩ := follows.records records phase
    obtain ⟨⟨i, record⟩, rest, rfl⟩ := exists_cons_of_ne_nil filled
    refine ⟨.send, rfl, ?_⟩
    unfold Subscription.step
    rw [phase]
    rfl

end

theorem delivers_first (lossless : ∀ event, codec.fromStr (codec.toString event) = some event)
    (quiet : ∀ name ∈ others, ∀ event, codec.streamKey event ≠ name) :
      Subscription.Delivers codec (channel :: others) := by
  constructor
  · intro streams labels s ran name member
    rcases reached lossless quiet ran with fresh | ⟨old, done, todo, follows⟩
    · rw [(fresh.nothing name).2]
      exact nil_prefix
    · rcases mem_cons.mp member with rfl | other
      · rw [follows.sentOf, follows.added, filterMap_append]
        exact prefix_append _ _
      · rw [(follows.elsewhere quiet other).2]
        exact nil_prefix
  · intro streams labels s ran
    rcases reached lossless quiet ran with fresh | ⟨old, done, todo, follows⟩
    · refine ⟨0, fun more later _ _ name _ => ?_⟩
      rw [(fresh.nothing name).1]
      exact nil_prefix
    · refine ⟨3 * (done ++ todo).length, fun more later ran enough name member => ?_⟩
      rcases mem_cons.mp member with rfl | other
      · obtain ⟨done', todo', follows', grown, gain⟩ := follows.run lossless quiet ran
        have low : later.phase.stage ≤ 2 := by cases later.phase <;> simp [ReadPhase.stage]
        have inside : done ++ todo <+: done' := by
          apply prefix_of_prefix_length_le grown (prefix_append _ _)
          omega
        rw [follows.added, follows'.sentOf]
        exact inside.filterMap _
      · rw [(follows.elsewhere quiet other).1]
        exact nil_prefix
  · rintro streams labels s ran ⟨name, member, behind⟩
    rcases reached lossless quiet ran with fresh | ⟨old, done, todo, follows⟩
    · rw [(fresh.nothing name).1, (fresh.nothing name).2] at behind
      exact absurd rfl behind
    · apply follows.goes
      rintro rfl
      apply behind
      rcases mem_cons.mp member with rfl | other
      · rw [follows.sentOf, follows.added, append_nil]
      · rw [(follows.elsewhere quiet other).1, (follows.elsewhere quiet other).2]

end

section
variable {P : Type} {codec : EventCodec P} {channel name : String} {others : List String}

def betweenReads (event : P) : List (SubscriptionStep P) :=
  [.startRead, .publish event 1, .reply, .send, .publish event 2, .startRead]

theorem publish_some {channels : List String} {s : Subscription P} {event : P} {id : Nat}
    (drawn : (s.streams (codec.streamKey event)).lastId < id) :
    Subscription.step codec channels s (.publish event id) = some { s with
      streams := Function.update s.streams (codec.streamKey event)
        ((s.streams (codec.streamKey event)).add id (codec.toString event) drawn) } :=
  dif_pos drawn

theorem keys_single {channels : List String} (nodup : channels.Nodup) (member : name ∈ channels)
    {s : Subscription P} {news : List StreamEntry} (filled : news ≠ []) (position : String → Nat)
    (here : (s.streams name).after (position name) = news)
    (silent : ∀ other ∈ channels, other ≠ name → (s.streams other).after (position other) = []) :
    s.keys (channels.map (fun channel => (channel, position channel))) = [news] := by
  unfold Subscription.keys
  rw [map_map]
  have single : (channels.filter (fun channel => !((s.streams channel).after (position channel)).isEmpty)) =
      [name] := by
    apply Lib.filter_eq_singleton nodup member
    · rw [here]
      simpa using filled
    · intro other inside hit
      by_contra apart
      rw [silent other inside apart] at hit
      cases hit
  have swap := filter_map (f := fun channel => (s.streams channel).after (position channel))
      (p := fun news => !news.isEmpty) (l := channels)
  have same : (fun news : List StreamEntry => !news.isEmpty) ∘
      (fun channel => (s.streams channel).after (position channel)) =
      fun channel => !((s.streams channel).after (position channel)).isEmpty := rfl
  rw [same, single, map_singleton, here] at swap
  exact swap

def oneEvent (codec : EventCodec P) (event : P) : EventStream :=
  ({} : EventStream).add 1 (codec.toString event) Nat.zero_lt_one

def twoEvents (codec : EventCodec P) (event : P) : EventStream :=
  (oneEvent codec event).add 2 (codec.toString event) Nat.one_lt_two

def holding (codec : EventCodec P) (event : P) (stream : EventStream) : String → EventStream :=
  Function.update (fun _ => {}) (codec.streamKey event) stream

section
variable (codec channel others) (event : P)

def firstReading : Subscription P where
  streams _ := {}
  lastIds := replicate (channel :: others).length .latest
  phase := .reading ((channel :: others).map (fun name => (name, 0)))
  atFirstRead := some (fun _ => 0)

def oneSent : Subscription P where
  streams := holding codec event (oneEvent codec event)
  lastIds := .id 1 :: replicate others.length .latest
  sent := [event]
  atFirstRead := some (fun _ => 0)

def secondReading : Subscription P :=
  { oneSent codec others event with
    streams := holding codec event (twoEvents codec event)
    phase := .reading ((channel, 1) :: others.map
      (fun name => (name, (holding codec event (twoEvents codec event) name).lastId))) }

end

variable {event : P}

variable (stream : EventStream)

theorem holding_self : holding codec event stream (codec.streamKey event) = stream :=
  Function.update_self ..

theorem holding_other (apart : name ≠ codec.streamKey event) : holding codec event stream name = {} :=
  Function.update_of_ne apart ..

theorem firstReading_records (nodup : (channel :: others).Nodup)
    (inside : codec.streamKey event ∈ channel :: others) :
    { firstReading channel others with streams := holding codec event (oneEvent codec event) : Subscription P }.records
      ((channel :: others).map (fun name => (name, 0))) = [(0, ⟨1, codec.toString event⟩)] := by
  have news : { firstReading channel others with streams := holding codec event (oneEvent codec event) : Subscription P }.keys
      ((channel :: others).map (fun name => (name, 0))) = [[⟨1, codec.toString event⟩]] := by
    apply keys_single nodup inside (cons_ne_nil _ _) (fun _ => 0)
    · show (holding codec event _ _).after 0 = _
      rw [holding_self]
      rfl
    · intro other _ different
      show (holding codec event _ _).after 0 = _
      rw [holding_other _ different]
      rfl
  unfold Subscription.records
  rw [news]
  rfl

theorem run_firstRead (lossless : ∀ event, codec.fromStr (codec.toString event) = some event)
    (nodup : (channel :: others).Nodup) (inside : codec.streamKey event ∈ channel :: others) :
    run (Subscription.step codec (channel :: others)) (Subscription.init (channel :: others) (fun _ => {}))
      [.startRead, .publish event 1, .reply, .send] = some (oneSent codec others event) := by
  let noted : Subscription P := { firstReading channel others with streams := holding codec event (oneEvent codec event) }
  let fresh : Subscription P := Subscription.init (channel :: others) (fun _ => {})
  have started : Subscription.step codec (channel :: others) fresh .startRead = some
      (firstReading channel others) := by
    show some { fresh with
      phase := .reading (map _ (zip _ (replicate (channel :: others).length _))), atFirstRead :=
        some (fun _ => 0) } = _
    rw [zip_latest]
    rfl
  have published : Subscription.step codec (channel :: others) (firstReading channel others)
      (.publish event 1) = some noted :=
    publish_some Nat.zero_lt_one
  have replied : Subscription.step codec (channel :: others) noted .reply =
      some { noted with phase := .sending [(0, ⟨1, codec.toString event⟩)] } := by
    show (if (noted.records _).isEmpty then none else some { noted with phase := .sending (noted.records _) }) = _
    rw [firstReading_records nodup inside]
    rfl
  have sent : Subscription.step codec (channel :: others)
      { noted with phase := .sending [(0, ⟨1, codec.toString event⟩)] } .send =
      some (oneSent codec others event) := by
    show some { oneSent codec others event with sent := [] ++ (codec.fromStr (codec.toString event)).toList } = _
    rw [lossless event]
    rfl
  have last : run (Subscription.step codec (channel :: others))
      { noted with phase := .sending [(0, ⟨1, codec.toString event⟩)] } [.send] =
      some (oneSent codec others event) := Lib.run_cons.mpr ⟨_, sent, rfl⟩
  have replying := Lib.run_cons.mpr ⟨_, replied, last⟩
  exact Lib.run_cons.mpr ⟨_, started, Lib.run_cons.mpr ⟨noted, published, replying⟩⟩

theorem add_holding {id : Nat} {text : String}
    (drawn : (holding codec event stream (codec.streamKey event)).lastId < id) (next : stream.lastId < id) :
    Function.update (holding codec event stream) (codec.streamKey event)
      ((holding codec event stream (codec.streamKey event)).add id text drawn) =
      holding codec event (stream.add id text next) := by
  unfold holding
  rw [Function.update_idem]
  simp only [Function.update_self]

theorem run_secondRead : run (Subscription.step codec (channel :: others)) (oneSent codec others event)
    [.publish event 2, .startRead] =
    some (secondReading codec channel others event) := by
  let noted : Subscription P := { oneSent codec others event with streams := holding codec event (twoEvents codec event) }
  have drawn : (holding codec event (oneEvent codec event) (codec.streamKey event)).lastId < 2 := by
    rw [holding_self]
    exact Nat.one_lt_two
  have published : Subscription.step codec (channel :: others) (oneSent codec others event)
      (.publish event 2) = some noted := by
    rw [publish_some (s := oneSent codec others event) drawn]
    exact congrArg (fun streams => some { oneSent codec others event with streams })
      (add_holding (oneEvent codec event) drawn Nat.one_lt_two)
  have started : Subscription.step codec (channel :: others) noted .startRead = some
      (secondReading codec channel others event) := by
    show some { noted with phase := .reading ((channel, 1) :: map _ (zip _ (replicate others.length _))) } = _
    rw [zip_latest]
    rfl
  exact Lib.run_cons.mpr ⟨noted, published, Lib.run_cons.mpr ⟨_, started, rfl⟩⟩

theorem secondReading_added (lossless : ∀ event, codec.fromStr (codec.toString event) = some event) :
    (secondReading codec channel others event).added codec (codec.streamKey event) = [event, event] := by
  show ((holding codec event _ _).entries.drop 0).filterMap _ = _
  rw [holding_self]
  simp [twoEvents, oneEvent, EventStream.add, lossless event]

theorem secondReading_stuck (apart : channel ≠ codec.streamKey event) :
    Subscription.step codec (channel :: others) (secondReading codec channel others event) .reply = none := by
  let request := (channel, 1) :: others.map
      (fun name => (name, (holding codec event (twoEvents codec event) name).lastId))
  have none : (secondReading codec channel others event).keys request = [] := by
    apply filter_eq_nil_iff.mpr
    intro news there
    obtain ⟨q, asked, rfl⟩ := mem_map.mp there
    rcases mem_cons.mp asked with rfl | later
    · show ¬ (!((holding codec event _ channel).after 1).isEmpty) = true
      rw [holding_other _ apart]
      decide
    · obtain ⟨name, _, rfl⟩ := mem_map.mp later
      show ¬ (!((holding codec event _ name).after (holding codec event _ name).lastId).isEmpty) = true
      rw [EventStream.after_lastId]
      decide
  have nothing : (secondReading codec channel others event).records request = [] := by
    unfold Subscription.records
    rw [none]
    rfl
  show (if ((secondReading codec channel others event).records request).isEmpty then _ else _) = _
  rw [nothing]
  rfl

theorem not_delivers (lossless : ∀ event, codec.fromStr (codec.toString event) = some event)
    (nodup : (channel :: others).Nodup) {event : P} (member : codec.streamKey event ∈ others) :
    ¬ Subscription.Delivers codec (channel :: others) := by
  intro delivers
  have apart : channel ≠ codec.streamKey event := fun same => (nodup_cons.mp nodup).1 (same ▸ member)
  have inside : codec.streamKey event ∈ channel :: others := mem_cons_of_mem _ member
  have ran : run (Subscription.step codec (channel :: others)) (Subscription.init (channel :: others) (fun _ => {}))
      (betweenReads event) =
      some (secondReading codec channel others event) :=
        Lib.run_append.mpr ⟨_, run_firstRead lossless nodup inside, run_secondRead⟩
  have behind : (secondReading codec channel others event).sentOf codec (codec.streamKey event) ≠
      (secondReading codec channel others event).added codec (codec.streamKey event) := by
    have one : (secondReading codec channel others event).sentOf codec (codec.streamKey event) = [event] :=
      filter_cons_of_pos (decide_eq_true rfl)
    rw [one, secondReading_added lossless]
    simp
  obtain ⟨label, own, possible⟩ := delivers.goes _ _ _ ran ⟨_, inside, behind⟩
  cases label with
  | publish event id => cases own
  | startRead => cases possible
  | send => cases possible
  | reply =>
    rw [secondReading_stuck apart] at possible
    cases possible

end

/-- Subscribers to several streams get all events exactly if only the first stream can have any. -/
theorem delivers_iff {P : Type} (codec : EventCodec P)
    (lossless : ∀ event, codec.fromStr (codec.toString event) = some event) (channels : List String)
    (nodup : channels.Nodup) :
    Subscription.Delivers codec channels ↔ ∀ name ∈ channels.tail, ∀ event, codec.streamKey event ≠ name := by
  cases channels with
  | nil =>
    refine iff_of_true ⟨?_, ?_, ?_⟩ (fun _ absent => absurd absent not_mem_nil)
    · exact fun _ _ _ _ _ absent => absurd absent not_mem_nil
    · exact fun _ _ _ _ => ⟨0, fun _ _ _ _ _ absent => absurd absent not_mem_nil⟩
    · rintro _ _ _ _ ⟨_, absent, _⟩
      exact absurd absent not_mem_nil
  | cons channel others =>
    constructor
    · rintro delivers _ member event rfl
      exact not_delivers lossless nodup member delivers
    · exact delivers_first lossless

def tenantCodec : EventCodec String := ⟨fun tenantId => tenantId, fun tenantId => tenantId, some⟩

theorem delivers_iff_sample : Subscription.Delivers tenantCodec ["governance:events:t1"] :=
  (delivers_iff tenantCodec (fun _ => rfl) ["governance:events:t1"] (nodup_singleton _)).mpr
    (fun _ absent => absurd absent not_mem_nil)

theorem delivers_lost : ¬ ∀ (P : Type) (codec : EventCodec P),
    (∀ event, codec.fromStr (codec.toString event) = some event) →
    ∀ channels : List String, channels.Nodup → Subscription.Delivers codec channels := by
  intro delivers
  have lossless : ∀ event, tenantCodec.fromStr (tenantCodec.toString event) = some event := fun _ => rfl
  have nodup : ["governance:events:t1", "governance:events:t2"].Nodup := by decide
  exact not_delivers lossless nodup (mem_singleton.mpr
    (by decide : tenantCodec.streamKey "t2" = "governance:events:t2"))
    (delivers String tenantCodec lossless _ nodup)

end Aeterna.Events
