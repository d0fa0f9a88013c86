/-
Routing of realtime items between server instances (`RealtimeHub` and `SealedRealtimeHub` in `lib.rs`).

Every instance keeps its subscribers under a text key, user and device joined with a colon. An item is published to the
subscribers of its key at the same instance and to a Redis channel whose name ends in the key; the other instances cut the
key out of the channel's name. Ids may contain colons (`validate_id` looks at the length only), so two streams can have one
key.

Instances share one Redis. A channel message may be taken by any instance at any time, more than once or never; whether Redis
is reached is part of a publication. The JSON of an envelope is taken to be read as it was written. The stream that a
subscriber asked for and the stream that an item was published for are recorded beside the data of the source.

- `inboxStreamKey_inj`: keys tell streams apart whose users have no colon.
- `realtime_isolated`: in every run with such users, items are handed to subscribers of their own stream only.
- `realtime_misrouted`: a subscriber that gets the items of another user, at the same instance and over Redis.
-/
import PqMsg.Lib.Run
import PqMsg.Lib.Separated
import PqMsg.Server.Validation

namespace PqMsg.Server

open Lib Function List String

/-! ## Streams and keys -/

/-- a user and a device with ids that the server accepts -/
structure Stream where
  userId : String
  deviceId : String
  userAdmitted : validateId "user_id" userId = .ok ()
  deviceAdmitted : validateId "device_id" deviceId = .ok ()
deriving DecidableEq

/-- the two hubs of an instance -/
inductive HubKind where
  | direct
  | sealed
deriving DecidableEq

def inboxStreamKey (userId deviceId : String) : String := userId ++ ":" ++ deviceId

def Stream.key (s : Stream) : String := inboxStreamKey s.userId s.deviceId

def HubKind.channelPrefix : HubKind → String
  | .direct => "pqmsg:inbox:"
  | .sealed => "pqmsg:sealed-inbox:"

def redisChannel (kind : HubKind) (userId deviceId : String) : String :=
  kind.channelPrefix ++ inboxStreamKey userId deviceId

def redisInboxChannel : String → String → String := redisChannel .direct
def redisSealedInboxChannel : String → String → String := redisChannel .sealed

/-- `str::strip_prefix` -/
def stripPrefix (front value : String) : Option String :=
  if front.toList <+: value.toList then some (String.ofList (value.toList.drop front.toList.length)) else none

/-! ## Hubs -/

variable {ι α : Type} [DecidableEq ι]

/-- an item, with the hub and the stream it was published for -/
structure Published (α : Type) where
  kind : HubKind
  stream : Stream
  message : α

/-- a sender of the hub with its channel, and the hub and the stream that were subscribed for -/
structure Subscriber (α : Type) where
  id : ℕ
  kind : HubKind
  stream : Stream
  queue : List (Published α)
  receiverDropped : Bool

def subscriberCapacity : ℕ := 256

def Subscriber.trySend (item : Published α) (s : Subscriber α) : Option (Subscriber α) :=
  if s.receiverDropped ∨ subscriberCapacity ≤ s.queue.length then none else some { s with queue := s.queue ++ [item] }

/-- `inner` and `next_id`; a key without subscribers is not in the map -/
structure Hub (α : Type) where
  inner : String → List (Subscriber α)
  nextId : ℕ

def Hub.new : Hub α := ⟨fun _ => [], 1⟩

structure Envelope (α : Type) where
  originInstanceId : Option String
  message : Published α

structure Instance (α : Type) where
  instanceId : String
  hubs : HubKind → Hub α

/-- the subscribers under a key that take an item -/
def Hub.takers (hub : Hub α) (key : String) (item : Published α) : List (Subscriber α) :=
  (hub.inner key).filter fun s => (s.trySend item).isSome

/-- `subscribers.retain(|s| s.sender.try_send(…).is_ok())` on the subscribers of a key -/
def Hub.send (hub : Hub α) (key : String) (item : Published α) : Hub α :=
  { hub with inner := Function.update hub.inner key ((hub.inner key).filterMap (Subscriber.trySend item)) }

def Hub.subscribe (hub : Hub α) (kind : HubKind) (stream : Stream) : Hub α :=
  let key := inboxStreamKey stream.userId stream.deviceId
  ⟨Function.update hub.inner key (hub.inner key ++ [⟨hub.nextId, kind, stream, [], false⟩]), hub.nextId + 1⟩

def Hub.unsubscribe (hub : Hub α) (stream : Stream) (subscriberId : ℕ) : Hub α :=
  let key := inboxStreamKey stream.userId stream.deviceId
  { hub with inner := Function.update hub.inner key ((hub.inner key).filter fun s => s.id ≠ subscriberId) }

/-- the receiver of a subscriber takes an item from its channel, or goes away -/
def Hub.receive (hub : Hub α) (key : String) (subscriberId : ℕ) (dropped : Bool) : Hub α :=
  { hub with
    inner := Function.update hub.inner key ((hub.inner key).map fun s =>
      if s.id = subscriberId then { s with queue := s.queue.tail, receiverDropped := dropped } else s) }

/-! ## Instances and Redis -/

/-- `handed` pairs what a subscriber asked for with what the item it was handed was published for -/
structure Cluster (ι α : Type) where
  instances : ι → Instance α
  redis : List (String × Envelope α)
  handed : List ((HubKind × Stream) × (HubKind × Stream))

open Cluster

inductive RouteOp (ι α : Type) where
  | start (i : ι) (instanceId : String)
  | subscribe (i : ι) (kind : HubKind) (stream : Stream)
  | unsubscribe (i : ι) (kind : HubKind) (stream : Stream) (subscriberId : ℕ)
  | receive (i : ι) (kind : HubKind) (key : String) (subscriberId : ℕ) (dropped : Bool)
  | publish (i : ι) (kind : HubKind) (stream : Stream) (message : α) (reached : Bool)
  /-- the subscriber loop of a hub takes a message of Redis -/
  | forward (i : ι) (kind : HubKind) (n : ℕ)

def Cluster.setHub (w : Cluster ι α) (i : ι) (kind : HubKind) (hub : Hub α) : Cluster ι α :=
  { w with
    instances := Function.update w.instances i
      { w.instances i with hubs := Function.update (w.instances i).hubs kind hub } }

/-- `dispatch_local`, and the end of the subscriber loop -/
def Cluster.dispatch (w : Cluster ι α) (i : ι) (kind : HubKind) (key : String) (item : Published α) : Cluster ι α :=
  let hub := (w.instances i).hubs kind
  { w.setHub i kind (hub.send key item) with
    handed := w.handed ++ (hub.takers key item).map fun s => ((s.kind, s.stream), (item.kind, item.stream)) }

def Cluster.publish (w : Cluster ι α) (i : ι) (kind : HubKind) (stream : Stream) (message : α) (reached : Bool) : Cluster ι α :=
  let item : Published α := ⟨kind, stream, message⟩
  let redis := if reached then
      w.redis ++ [(redisChannel kind stream.userId stream.deviceId, ⟨some (w.instances i).instanceId, item⟩)]
    else w.redis
  { w with redis := redis }.dispatch i kind (inboxStreamKey stream.userId stream.deviceId) item

/-- the body of the subscriber loop, for a message of a channel that matches the pattern of the hub -/
def Cluster.forward (w : Cluster ι α) (i : ι) (kind : HubKind) (channel : String) (envelope : Envelope α) : Cluster ι α :=
  let key := (stripPrefix kind.channelPrefix channel).getD channel
  if envelope.originInstanceId = some (w.instances i).instanceId then w else w.dispatch i kind key envelope.message

def Cluster.step (w : Cluster ι α) : RouteOp ι α → Cluster ι α
  | .start i instanceId =>
    { w with instances := Function.update w.instances i ⟨instanceId, fun _ => .new⟩ }
  | .subscribe i kind stream => w.setHub i kind (((w.instances i).hubs kind).subscribe kind stream)
  | .unsubscribe i kind stream subscriberId =>
    w.setHub i kind (((w.instances i).hubs kind).unsubscribe stream subscriberId)
  | .receive i kind key subscriberId dropped =>
    w.setHub i kind (((w.instances i).hubs kind).receive key subscriberId dropped)
  | .publish i kind stream message reached => w.publish i kind stream message reached
  | .forward i kind n =>
    match w.redis[n]? with
    | some (channel, envelope) =>
      -- the loop has subscribed to the pattern of its hub
      if kind.channelPrefix.toList <+: channel.toList then w.forward i kind channel envelope else w
    | none => w

/-- all instances have just been started -/
def Cluster.empty (instanceIds : ι → String) : Cluster ι α := ⟨fun i => ⟨instanceIds i, fun _ => .new⟩, [], []⟩

/-! ## Keys of streams -/

/-- the user id has no colon -/
def Stream.Plain (s : Stream) : Prop := ':' ∉ s.userId.toList

instance (s : Stream) : Decidable s.Plain := inferInstanceAs (Decidable (¬_))

lemma inboxStreamKey_toList (userId deviceId : String) :
    (inboxStreamKey userId deviceId).toList = userId.toList ++ ':' :: deviceId.toList := by
  simp [inboxStreamKey, toList_append]

/-- **Keys tell plain streams apart** -/
lemma inboxStreamKey_inj {s t : Stream} (hs : s.Plain) (ht : t.Plain) (h : s.key = t.key) : s = t := by
  have hlist := congrArg toList h
  rw [Stream.key, Stream.key, inboxStreamKey_toList, inboxStreamKey_toList] at hlist
  obtain ⟨huser, hdevice⟩ := separated_inj hs ht hlist
  cases s with
  | mk user device =>
    cases t with
    | mk user' device' =>
      obtain rfl : user = user' := toList_inj.1 huser
      obtain rfl : device = device' := toList_inj.1 hdevice
      rfl

/-- the subscriber loop finds the key that the publisher put into the channel -/
lemma stripPrefix_append (front rest : String) : stripPrefix front (front ++ rest) = some rest := by
  have hprefix : front.toList <+: (front ++ rest).toList := by
    rw [toList_append]
    exact prefix_append _ _
  rw [stripPrefix, if_pos hprefix, toList_append, drop_left, ofList_toList]

/-- the patterns of the two hubs have no channel in common -/
lemma channelPrefix_inj {kind kind' : HubKind} {rest : String}
    (h : kind.channelPrefix.toList <+: (kind'.channelPrefix ++ rest).toList) : kind = kind' := by
  rw [toList_append] at h
  cases kind with
  | direct =>
    cases kind' with
    | direct => rfl
    | sealed => exact absurd h (by simp [HubKind.channelPrefix])
  | sealed =>
    cases kind' with
    | direct => exact absurd h (by simp [HubKind.channelPrefix])
    | sealed => rfl

/-! ## Every subscriber is under its own key -/

/-- what is known about a subscriber under a key of a hub -/
structure Filed (kind : HubKind) (key : String) (s : Subscriber α) : Prop where
  kind_eq : s.kind = kind
  key_eq : s.stream.key = key
  plain : s.stream.Plain

structure RouteInv (w : Cluster ι α) : Prop where
  filed : ∀ i kind key, ∀ s ∈ ((w.instances i).hubs kind).inner key, Filed kind key s
  channels : ∀ entry ∈ w.redis, entry.2.message.stream.Plain ∧
    entry.1 = entry.2.message.kind.channelPrefix ++ entry.2.message.stream.key
  handed : ∀ pair ∈ w.handed, pair.1 = pair.2

/-- the streams of an operation are plain -/
def PlainUsers : RouteOp ι α → Prop
  | .subscribe _ _ stream | .publish _ _ stream _ _ => stream.Plain
  | _ => True

instance : (o : RouteOp ι α) → Decidable (PlainUsers o)
  | .subscribe _ _ stream | .publish _ _ stream _ _ => inferInstanceAs (Decidable stream.Plain)
  | .start _ _ | .unsubscribe _ _ _ _ | .receive _ _ _ _ _ | .forward _ _ _ => isTrue trivial

omit [DecidableEq ι] in
lemma RouteInv.empty (instanceIds : ι → String) : RouteInv (empty instanceIds : Cluster ι α) :=
  ⟨fun _ _ _ _ hs => absurd hs not_mem_nil, fun _ he => absurd he not_mem_nil, fun _ hp => absurd hp not_mem_nil⟩

section Steps

variable {w : Cluster ι α} {i : ι} {kind : HubKind} {key : String}

/-- the subscribers of one key of one hub are changed -/
lemma RouteInv.setKey (h : RouteInv w) {subscribers : List (Subscriber α)} {nextId : ℕ}
    (hfiled : ∀ s ∈ subscribers, Filed kind key s) :
    RouteInv (w.setHub i kind ⟨Function.update ((w.instances i).hubs kind).inner key subscribers, nextId⟩) := by
  refine ⟨fun j kind' key' s hs => ?_, h.channels, h.handed⟩
  by_cases hj : j = i
  · subst hj
    by_cases hk : kind' = kind
    · subst hk
      simp only [setHub, update_self] at hs
      by_cases hkey : key' = key
      · subst hkey
        rw [update_self] at hs
        exact hfiled s hs
      · rw [update_of_ne hkey] at hs
        exact h.filed j kind' key' s hs
    · simp only [setHub, update_self, update_of_ne hk] at hs
      exact h.filed j kind' key' s hs
  · simp only [setHub, update_of_ne hj] at hs
    exact h.filed j kind' key' s hs

lemma Filed.trySend {item : Published α} {s s' : Subscriber α} (h : Filed kind key s) (hsend : s.trySend item = some s') :
    Filed kind key s' := by
  unfold Subscriber.trySend at hsend
  split_ifs at hsend with hfull
  cases hsend
  exact ⟨h.kind_eq, h.key_eq, h.plain⟩

/-- **Dispatching**: the subscribers under the key of a plain stream have subscribed for that stream -/
lemma RouteInv.dispatch (h : RouteInv w) (item : Published α) (hplain : item.stream.Plain) :
    RouteInv (w.dispatch i item.kind item.stream.key item) := by
  have hsent : RouteInv (w.setHub i item.kind (((w.instances i).hubs item.kind).send item.stream.key item)) := by
    refine h.setKey fun s' hs' => ?_
    obtain ⟨s, hs, hsend⟩ := mem_filterMap.1 hs'
    exact (h.filed i item.kind item.stream.key s hs).trySend hsend
  refine ⟨hsent.filed, hsent.channels, fun pair hp => ?_⟩
  rcases mem_append.1 hp with hold | hnew
  · exact h.handed pair hold
  · obtain ⟨s, hs, rfl⟩ := mem_map.1 hnew
    have hfiled := h.filed i item.kind item.stream.key s (mem_filter.1 hs).1
    rw [hfiled.kind_eq, inboxStreamKey_inj hfiled.plain hplain hfiled.key_eq]

lemma RouteInv.publish (h : RouteInv w) {stream : Stream} (hplain : stream.Plain) (message : α) (reached : Bool) :
    RouteInv (w.publish i kind stream message reached) := by
  have hredis : RouteInv { w with redis := if reached then
      w.redis ++ [(redisChannel kind stream.userId stream.deviceId,
        ⟨some (w.instances i).instanceId, ⟨kind, stream, message⟩⟩)] else w.redis } := by
    refine ⟨h.filed, ?_, h.handed⟩
    cases reached with
    | false => exact h.channels
    | true => exact forall_mem_append.2 ⟨h.channels, forall_mem_singleton.2 ⟨hplain, rfl⟩⟩
  exact hredis.dispatch ⟨kind, stream, message⟩ hplain

lemma RouteInv.forward (h : RouteInv w) {envelope : Envelope α} (hplain : envelope.message.stream.Plain) :
    RouteInv (w.forward i envelope.message.kind
      (envelope.message.kind.channelPrefix ++ envelope.message.stream.key) envelope) := by
  unfold Cluster.forward
  rw [stripPrefix_append, Option.getD_some]
  split_ifs
  · exact h
  · exact h.dispatch envelope.message hplain

end Steps

lemma step_route {w : Cluster ι α} (h : RouteInv w) (o : RouteOp ι α) (ho : PlainUsers o) : RouteInv (w.step o) := by
  cases o with
  | start i =>
    refine ⟨fun j kind key s hs => ?_, h.channels, h.handed⟩
    by_cases hj : j = i
    · subst hj
      simp only [step, update_self] at hs
      exact absurd hs not_mem_nil
    · simp only [step, update_of_ne hj] at hs
      exact h.filed j kind key s hs
  | subscribe i kind =>
    exact h.setKey (forall_mem_append.2 ⟨h.filed i kind _, forall_mem_singleton.2 ⟨rfl, rfl, ho⟩⟩)
  | unsubscribe i kind =>
    exact h.setKey fun s hs => h.filed i kind _ s (mem_filter.1 hs).1
  | receive i kind key =>
    refine h.setKey fun s' hs' => ?_
    obtain ⟨s, hs, rfl⟩ := mem_map.1 hs'
    have hfiled := h.filed i kind key s hs
    split_ifs
    · exact ⟨hfiled.kind_eq, hfiled.key_eq, hfiled.plain⟩
    · exact hfiled
  | publish i kind stream message reached => exact h.publish ho message reached
  | forward i kind n =>
    change RouteInv (match w.redis[n]? with
      | some (channel, envelope) =>
        if kind.channelPrefix.toList <+: channel.toList then w.forward i kind channel envelope else w
      | none => w)
    cases hentry : w.redis[n]? with
    | none => exact h
    | some entry =>
      obtain ⟨hplain, hchannel⟩ := h.channels entry (mem_of_getElem? hentry)
      obtain ⟨channel, envelope⟩ := entry
      dsimp only at hplain hchannel ⊢
      split_ifs with hpattern
      · rw [hchannel] at hpattern ⊢
        obtain rfl := channelPrefix_inj hpattern
        exact h.forward hplain
      · exact h

/-- **Realtime items reach only their addressee**: in every run whose users have no colon in their ids -/
theorem realtime_isolated (instanceIds : ι → String) (ops : List (RouteOp ι α))
    (hplain : Legal Cluster.step (fun _ o => PlainUsers o) (Cluster.empty instanceIds) ops) :
    ∀ pair ∈ (run Cluster.step (Cluster.empty instanceIds) ops).handed, pair.1 = pair.2 :=
  (run_inv RouteInv (fun _ o h ho => step_route h o ho) ops (RouteInv.empty instanceIds) hplain).handed

/-! ## Two streams with one key -/

namespace Sample

def alicePhone : Stream := ⟨"alice", "phone", by decide +kernel, by decide +kernel⟩

/-- a device whose id has a colon -/
def aliceSpare : Stream := ⟨"alice", "work:phone", by decide +kernel, by decide +kernel⟩

/-- another user, with the key of `aliceSpare` -/
def aliceWork : Stream := ⟨"alice:work", "phone", by decide +kernel, by decide +kernel⟩

def cluster : Cluster (Fin 2) ℕ := .empty fun i => if i = 0 then "first" else "second"

end Sample

/-- two instances, a subscriber at each, and an item that both get -/
theorem realtime_isolated_spare :
    let ops : List (RouteOp (Fin 2) ℕ) :=
      [.subscribe 0 .direct Sample.aliceSpare, .subscribe 1 .direct Sample.aliceSpare,
        .subscribe 1 .direct Sample.alicePhone, .publish 0 .direct Sample.aliceSpare 7 true, .forward 1 .direct 0]
    let pair := ((HubKind.direct, Sample.aliceSpare), (HubKind.direct, Sample.aliceSpare))
    (run Cluster.step Sample.cluster ops).handed = [pair, pair] ∧
    ∀ pair ∈ (run Cluster.step Sample.cluster ops).handed, pair.1 = pair.2 :=
  ⟨by decide, realtime_isolated _ _ (by decide)⟩

/-- **Items for another user**: `alice` with the device `work:phone` gets what is published for `alice:work` with the device
`phone`, from its own instance and from another one -/
theorem realtime_misrouted :
    let ops : List (RouteOp (Fin 2) ℕ) :=
      [.subscribe 0 .direct Sample.aliceSpare, .subscribe 1 .direct Sample.aliceSpare,
        .publish 0 .direct Sample.aliceWork 7 true, .forward 1 .direct 0]
    let pair := ((HubKind.direct, Sample.aliceSpare), (HubKind.direct, Sample.aliceWork))
    (run Cluster.step Sample.cluster ops).handed = [pair, pair] ∧ pair.1 ≠ pair.2 := by
  decide

end PqMsg.Server
