import Kryvaracode.Exceptions
import Kryvaracode.JsonText
import Kryvaracode.InsertionDict

namespace Kryvaracode.Messages
open JsonText InsertionDict

inductive MessageType where
  | agentMsg
  | taskRequest
  | taskResult
  | stateUpdate
  | heartbeat
  | system
  deriving DecidableEq, Repr

structure Message where
  topic : Text
  sender : Text
  payload : Members
  msgType : MessageType

-- What a callback or a filter does may differ from one message to the next.
structure Subscription where
  subscriberId : Text
  topicPattern : Text
  callback : Nat → Message → Result Unit
  filterFn : Option (Nat → Message → Result Bool)

structure MessageBus where
  subscribers : Dict Text (List Subscription)
  queue : List Message
  running : Bool
  history : List Message

def hasStars : Text → Bool
  | '*' :: '*' :: _ => true
  | _ :: rest => hasStars rest
  | [] => false

def dropStars : Text → Text
  | '*' :: '*' :: rest => dropStars rest
  | c :: rest => c :: dropStars rest
  | [] => []

def rstripDots (text : Text) : Text := (text.reverse.dropWhile (· == '.')).reverse

def topicMatches (topic pattern : Text) : Bool :=
  if pattern = ['*'] then true
  else if hasStars pattern then (rstripDots (dropStars pattern)).isPrefixOf topic
  else if ['.','*'].isSuffixOf pattern then
    let stem := pattern.take (pattern.length - 2)
    if (stem ++ ['.']).isPrefixOf topic then !(topic.drop (stem.length + 1)).contains '.' else false
  else topic == pattern

-- A subscription with its place in the order of dispatch.
structure Place where
  index : Nat
  pattern : Text
  sub : Subscription

namespace MessageBus

def init : MessageBus := ⟨Dict.empty,[],false,[]⟩

-- A deque that holds the last thousand.
def maxlen : Nat := 1000

variable (bus : MessageBus)

def subscribe (subscriberId topicPattern : Text) (callback : Nat → Message → Result Unit)
    (filterFn : Option (Nat → Message → Result Bool)) : MessageBus :=
  let subs := (bus.subscribers.get topicPattern).getD []
  {bus with subscribers :=
    bus.subscribers.set topicPattern (subs ++ [⟨subscriberId,topicPattern,callback,filterFn⟩])}

def publish (message : Message) : MessageBus := {bus with queue := bus.queue ++ [message]}

def record (message : Message) : MessageBus :=
  {bus with history := (bus.history ++ [message]).drop (bus.history.length + 1 - maxlen)}

def places : List Place :=
  (bus.subscribers.entries.flatMap fun entry => entry.2.map fun sub => (entry.1,sub)).zipIdx.map
    fun found => ⟨found.2,found.1.1,found.1.2⟩

end MessageBus

structure Delivery where
  turn : Nat
  place : Nat
  deriving DecidableEq, Repr

def filtered (turn : Nat) (message : Message) (sub : Subscription) : Result Bool :=
  match sub.filterFn with
  | none => .ok true
  | some filterFn => filterFn turn message

-- One message to the subscriptions from a place on. A callback's exception is
-- logged and the loop goes on; a filter's leaves the loop.
def fanOut (turn : Nat) (message : Message) : List Place → List Delivery × Option Failure
  | [] => ([],none)
  | place :: rest =>
      if topicMatches message.topic place.pattern then
        match filtered turn message place.sub with
        | .error exc => ([],some exc)
        | .ok false => fanOut turn message rest
        | .ok true =>
            let delivered := ⟨turn,place.index⟩ :: (fanOut turn message rest).1
            match place.sub.callback turn message with
            | .error _ => (delivered,(fanOut turn message rest).2)
            | .ok () => (delivered,(fanOut turn message rest).2)
      else fanOut turn message rest

structure Dispatch where
  delivered : List Delivery
  escaped : Option Failure
  bus : MessageBus

-- The loop up to the point where it waits for a next message or is dead.
def dispatchFrom (bus : MessageBus) (turn : Nat) : List Message → Dispatch
  | [] => ⟨[],none,{bus with queue := []}⟩
  | message :: rest =>
      match fanOut turn message bus.places with
      | (delivered,some exc) => ⟨delivered,some exc,{bus.record message with queue := rest}⟩
      | (delivered,none) =>
          let later := dispatchFrom (bus.record message) (turn + 1) rest
          ⟨delivered ++ later.delivered,later.escaped,later.bus⟩

def dispatchLoop (bus : MessageBus) : Dispatch := dispatchFrom bus 0 bus.queue

-- What becomes of one message at one subscription.
inductive Verdict where
  | passed
  | wanted
  | broken (exc : Failure)

def verdict (turn : Nat) (message : Message) (place : Place) : Verdict :=
  if topicMatches message.topic place.pattern then
    match filtered turn message place.sub with
    | .error exc => .broken exc
    | .ok false => .passed
    | .ok true => .wanted
  else .passed

def due (turn : Nat) (message : Message) (place : Place) : Bool :=
  match verdict turn message place with
  | .wanted => true
  | .passed | .broken _ => false

def raises (turn : Nat) (message : Message) (place : Place) : Bool :=
  match verdict turn message place with
  | .broken _ => true
  | .passed | .wanted => false

theorem due_exact (turn : Nat) (message : Message) (place : Place) : due turn message place = true ↔
    topicMatches message.topic place.pattern = true ∧ filtered turn message place.sub = .ok true := by
  unfold due verdict
  cases topicMatches message.topic place.pattern with
  | false => simp
  | true =>
      cases filtered turn message place.sub with
      | error exc => simp
      | ok wanted => cases wanted <;> simp

theorem raises_exact (turn : Nat) (message : Message) (place : Place) : raises turn message place = true ↔
    topicMatches message.topic place.pattern = true ∧ ∃ exc, filtered turn message place.sub = .error exc := by
  unfold raises verdict
  cases topicMatches message.topic place.pattern with
  | false => simp
  | true =>
      cases filtered turn message place.sub with
      | error exc => simp
      | ok wanted => cases wanted <;> simp

theorem fanOut_cons (turn : Nat) (message : Message) (place : Place) (rest : List Place) :
    fanOut turn message (place :: rest) = match verdict turn message place with
      | .passed => fanOut turn message rest
      | .wanted => (⟨turn,place.index⟩ :: (fanOut turn message rest).1,(fanOut turn message rest).2)
      | .broken exc => ([],some exc) := by
  unfold verdict
  rw [fanOut]
  cases topicMatches message.topic place.pattern with
  | false => rfl
  | true =>
      cases filtered turn message place.sub with
      | error exc => rfl
      | ok wanted =>
          cases wanted with
          | false => rfl
          | true => cases place.sub.callback turn message <;> rfl

theorem record_places (bus : MessageBus) (message : Message) : (bus.record message).places = bus.places := by
  simp only [MessageBus.places,MessageBus.record]

theorem places_distinct (bus : MessageBus) : (bus.places.map Place.index).Nodup := by
  have indexes : bus.places.map Place.index =
      (bus.subscribers.entries.flatMap fun entry => entry.2.map fun sub => (entry.1,sub)).zipIdx.map Prod.snd := by
    rw [MessageBus.places,List.map_map]
    rfl
  rw [indexes,List.zipIdx_map_snd]
  exact List.nodup_range'

end Kryvaracode.Messages
