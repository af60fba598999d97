import Kryvaracode.InsertionDict
import Kryvaracode.Runs
import Kryvaracode.UnicodeText

namespace Kryvaracode.Nerve
open InsertionDict Runs

-- A callback by the number of its registration.
structure Registration where
  number : Nat
  eventType : Text
  deriving DecidableEq

-- What the dispatch reads of an event, and whether `stop` had been called when
-- it was emitted.
structure SystemEvent where
  eventType : Text
  late : Bool

structure Call where
  event : Nat
  registration : Registration
  deriving DecidableEq

-- At a callback, the place is the next one's.
inductive Phase where
  | fresh
  | waiting
  | specific (event : Nat) (eventType : Text) (place : Nat)
  | universal (event place : Nat)
  | ended

-- The queue holds the events emitted and not yet taken. Of each event taken is
-- kept how many had registered by then.
structure EventBus where
  subscribers : Dict Text (List Registration)
  made : Nat
  emitted : List SystemEvent
  taken : List Nat
  running : Bool
  stopped : Bool
  phase : Phase
  calls : List Call

-- A callback that is called returns or raises an Exception at `finish`, and may
-- do anything in between.
inductive Label where
  | subscribe (eventType : Text)
  | emit (eventType : Text)
  | stop
  | begin
  | take
  | finish

def wildcard : Text := ['*']

namespace EventBus

def init : EventBus := ⟨Dict.empty,0,[],[],false,false,.fresh,[]⟩

variable (bus : EventBus)

def subs (eventType : Text) : List Registration := (bus.subscribers.get eventType).getD []

def subscribe (eventType : Text) : EventBus := {bus with
  subscribers := bus.subscribers.set eventType (bus.subs eventType ++ [⟨bus.made,eventType⟩])
  made := bus.made + 1}

def called (event : Nat) (registration : Registration) (phase : Phase) : EventBus :=
  {bus with calls := bus.calls ++ [⟨event,registration⟩],phase := phase}

-- Round the loop: the flag is read again.
def around : EventBus := {bus with phase := if bus.running then .waiting else .ended}

-- Both lists are read as they stand.
def universal (event place : Nat) : EventBus :=
  match (bus.subs wildcard)[place]? with
  | some callback => bus.called event callback (.universal event (place + 1))
  | none => bus.around

def specific (event : Nat) (eventType : Text) (place : Nat) : EventBus :=
  match (bus.subs eventType)[place]? with
  | some callback => bus.called event callback (.specific event eventType (place + 1))
  | none => bus.universal event 0

-- Nothing is asked of the flag once the queue hands an event out.
def take : EventBus :=
  match bus.phase,bus.emitted[bus.taken.length]? with
  | .waiting,some event => {bus with taken := bus.taken ++ [bus.made]}.specific bus.taken.length event.eventType 0
  | _,_ => bus

def step : Label → EventBus
  | .subscribe eventType => bus.subscribe eventType
  | .emit eventType => {bus with emitted := bus.emitted ++ [⟨eventType,bus.stopped⟩]}
  | .stop => {bus with running := false,stopped := true}
  | .begin =>
      match bus.phase with
      | .fresh => {bus with running := true,phase := .waiting}
      | _ => bus
  | .take => bus.take
  | .finish =>
      match bus.phase with
      | .specific event eventType place => bus.specific event eventType place
      | .universal event place => bus.universal event place
      | _ => bus

end EventBus

def Phase.event : Phase → Option Nat
  | .specific event _ _ | .universal event _ => some event
  | .fresh | .waiting | .ended => none

def Concerns (event : SystemEvent) (registration : Registration) : Prop :=
  registration.eventType = event.eventType ∨ registration.eventType = wildcard

-- Everyone an event concerns who had registered when it was taken has been called.
def Served (bus : EventBus) (index : Nat) : Prop :=
  ∀ event seen, bus.emitted[index]? = some event → bus.taken[index]? = some seen →
    ∀ eventType, ∀ registration ∈ bus.subs eventType, registration.number < seen → Concerns event registration →
      ⟨index,registration⟩ ∈ bus.calls

structure ExactlyOnce (bus : EventBus) : Prop where
  served : ∀ index, index < bus.taken.length → bus.phase.event ≠ some index → Served bus index
  once : bus.calls.Nodup
  concerned : ∀ call ∈ bus.calls, ∃ event, bus.emitted[call.event]? = some event ∧ Concerns event call.registration ∧
    ∃ eventType, call.registration ∈ bus.subs eventType
  ordered : bus.calls.Pairwise fun one other => one.event ≤ other.event
  silent : ∀ call ∈ bus.calls, ∀ event, bus.emitted[call.event]? = some event → event.late = false

-- No event emitted after a stop is taken while it concerns anyone, and the round
-- of callbacks for '*' that an event of that type begins with does not end.
def Fair (bus : EventBus) : Label → Prop
  | .take => bus.phase = .waiting → ∀ event, bus.emitted[bus.taken.length]? = some event → event.late = true →
      bus.subs event.eventType = [] ∧ bus.subs wildcard = []
  | .finish => ∀ event place, bus.phase = .specific event wildcard place → (bus.subs wildcard)[place]? ≠ none
  | .subscribe _ | .emit _ | .stop | .begin => True

-- What holds whether or not the run is fair, and what holds if it has been.
structure Base (bus : EventBus) : Prop where
  typed : ∀ eventType, ∀ registration ∈ bus.subs eventType,
    registration.eventType = eventType ∧ registration.number < bus.made
  distinct : ∀ eventType, (bus.subs eventType).Nodup
  within : bus.taken.length ≤ bus.emitted.length
  seen : ∀ count ∈ bus.taken, count ≤ bus.made
  past : ∀ call ∈ bus.calls, call.event < bus.taken.length
  once : bus.calls.Nodup
  concerned : ∀ call ∈ bus.calls, ∃ event, bus.emitted[call.event]? = some event ∧ Concerns event call.registration ∧
    ∃ eventType, call.registration ∈ bus.subs eventType
  ordered : bus.calls.Pairwise fun one other => one.event ≤ other.event
  silent : ∀ call ∈ bus.calls, ∀ event, bus.emitted[call.event]? = some event → event.late = false

-- The event in hand is the last taken, and was emitted before any stop.
structure Current (bus : EventBus) (index : Nat) (event : SystemEvent) : Prop where
  last : index + 1 = bus.taken.length
  emitted : bus.emitted[index]? = some event
  early : event.late = false
  others : ∀ other, other < bus.taken.length → other ≠ index → Served bus other

structure Special (bus : EventBus) (index : Nat) (event : SystemEvent) (place : Nat) : Prop
    extends Current bus index event where
  within : place ≤ (bus.subs event.eventType).length
  called : ∀ registration, ⟨index,registration⟩ ∈ bus.calls ↔ registration ∈ (bus.subs event.eventType).take place

structure General (bus : EventBus) (index : Nat) (event : SystemEvent) (place : Nat) : Prop
    extends Current bus index event where
  within : place ≤ (bus.subs wildcard).length
  special : ∀ seen, bus.taken[index]? = some seen → ∀ registration ∈ bus.subs event.eventType, registration.number < seen →
    ⟨index,registration⟩ ∈ bus.calls
  called : ∀ registration, registration.eventType = wildcard →
    (⟨index,registration⟩ ∈ bus.calls ↔ registration ∈ (bus.subs wildcard).take place)

def Phase.Stands (bus : EventBus) : Phase → Prop
  | .specific index eventType place => 0 < place ∧ ∃ event, event.eventType = eventType ∧ Special bus index event place
  | .universal index place => ∃ event, General bus index event place
  | .fresh | .waiting | .ended => ∀ index, index < bus.taken.length → Served bus index

structure Course (bus : EventBus) : Prop extends Base bus where
  stands : bus.phase.Stands bus

section Dispatch
variable {bus : EventBus} {index place : Nat} {event : SystemEvent}

theorem around_course (base : Base bus) (all : ∀ index, index < bus.taken.length → Served bus index) : Course bus.around := by
  refine ⟨⟨base.typed,base.distinct,base.within,base.seen,base.past,base.once,base.concerned,base.ordered,base.silent⟩,?_⟩
  unfold EventBus.around
  cases bus.running <;> exact all

-- A call of the event in hand that has not been made before.
theorem called_base (base : Base bus) (current : Current bus index event) {eventType : Text} {registration : Registration}
    (listed : registration ∈ bus.subs eventType) (concerns : Concerns event registration)
    (new : ⟨index,registration⟩ ∉ bus.calls) (phase : Phase) : Base (bus.called index registration phase) := by
  have latest : index < bus.taken.length := by
    rw [← current.last]
    exact Nat.lt_succ_self index
  have one : ∀ {P : Call → Prop}, (∀ call ∈ bus.calls, P call) → P ⟨index,registration⟩ →
      ∀ call ∈ bus.calls ++ [⟨index,registration⟩], P call := by
    intro P old its call member
    rcases List.mem_append.mp member with earlier | last
    · exact old call earlier
    · rw [List.mem_singleton.mp last]
      exact its
  refine ⟨base.typed,base.distinct,base.within,base.seen,one base.past latest,?_,?_,?_,?_⟩
  · apply List.nodup_append.mpr
    refine ⟨base.once,List.nodup_singleton _,?_⟩
    rintro call member other last rfl
    rw [List.mem_singleton.mp last] at member
    exact new member
  · apply one base.concerned
    exact ⟨event,current.emitted,concerns,eventType,listed⟩
  · apply List.pairwise_append.mpr
    refine ⟨base.ordered,List.pairwise_singleton _ _,?_⟩
    intro call member other last
    rw [List.mem_singleton.mp last]
    apply Nat.le_of_lt_succ
    rw [Nat.succ_eq_add_one,current.last]
    exact base.past call member
  · apply one base.silent
    intro other emitted
    cases current.emitted.symm.trans emitted
    exact current.early

theorem called_served (registration : Registration) (phase : Phase) {other : Nat} (served : Served bus other) :
    Served (bus.called index registration phase) other := by
  intro found seen emitted taken eventType one listed early concerns
  exact List.mem_append_left _ (served found seen emitted taken eventType one listed early concerns)

theorem called_current (current : Current bus index event) (registration : Registration) (phase : Phase) :
    Current (bus.called index registration phase) index event := by
  refine ⟨current.last,current.emitted,current.early,?_⟩
  intro other within apart
  exact called_served registration phase (current.others other within apart)

-- Those called so far and the one called now are those of one place more.
theorem called_take {listed : List Registration} {registration other : Registration} (here : listed[place]? = some registration)
    (phase : Phase) (before : ⟨index,other⟩ ∈ bus.calls ↔ other ∈ listed.take place) :
    ⟨index,other⟩ ∈ (bus.called index registration phase).calls ↔ other ∈ listed.take (place + 1) := by
  change _ ∈ bus.calls ++ [_] ↔ _
  rw [List.take_add_one,here,List.mem_append,List.mem_append,before,List.mem_singleton]
  simp

theorem take_new {listed : List Registration} (distinct : listed.Nodup) {registration : Registration}
    (here : listed[place]? = some registration) : registration ∉ listed.take place := by
  intro early
  obtain ⟨i,inside,same⟩ := List.mem_take_iff_getElem.mp early
  obtain ⟨bound,its⟩ := List.getElem?_eq_some_iff.mp here
  have equal := distinct.getElem_inj_iff.mp (same.trans its.symm)
  omega

-- Whoever an event concerns is in one of the two lists that the loop goes through.
theorem concerned_listed (base : Base bus) {eventType : Text} {registration : Registration}
    (listed : registration ∈ bus.subs eventType) (concerns : Concerns event registration) :
    registration ∈ bus.subs event.eventType ∨ registration ∈ bus.subs wildcard := by
  have type := (base.typed eventType registration listed).1
  rcases concerns with special | wild
  · rw [← special,type]
    exact .inl listed
  · rw [← wild,type]
    exact .inr listed

theorem universal_course (base : Base bus) (general : General bus index event place) : Course (bus.universal index place) := by
  unfold EventBus.universal
  cases here : (bus.subs wildcard)[place]? with
  | some registration =>
      have listed := List.mem_of_getElem? here
      have wild := (base.typed wildcard registration listed).1
      have new : ⟨index,registration⟩ ∉ bus.calls :=
        mt (general.called registration wild).mp (take_new (base.distinct wildcard) here)
      refine ⟨called_base base general.toCurrent listed (.inr wild) new _,event,called_current general.toCurrent _ _,?_,?_,?_⟩
      · exact (List.getElem?_eq_some_iff.mp here).1
      · intro seen taken other member early
        exact List.mem_append_left _ (general.special seen taken other member early)
      · intro other its
        exact called_take here _ (general.called other its)
  | none =>
      apply around_course base
      intro other within
      by_cases same : other = index
      · subst same
        intro found seen emitted taken eventType registration listed early concerns
        cases general.emitted.symm.trans emitted
        rcases concerned_listed base listed concerns with special | wild
        · exact general.special seen taken registration special early
        · apply (general.called registration (base.typed wildcard registration wild).1).mpr
          rwa [List.take_of_length_le (List.getElem?_eq_none_iff.mp here)]
      · exact general.others other within same

theorem specific_course (base : Base bus) (special : Special bus index event place)
    (fair : 0 < place → event.eventType = wildcard → (bus.subs wildcard)[place]? ≠ none) :
    Course (bus.specific index event.eventType place) := by
  unfold EventBus.specific
  cases here : (bus.subs event.eventType)[place]? with
  | some registration =>
      have listed := List.mem_of_getElem? here
      have new : ⟨index,registration⟩ ∉ bus.calls :=
        mt (special.called registration).mp (take_new (base.distinct event.eventType) here)
      have concerns : Concerns event registration := .inl (base.typed event.eventType registration listed).1
      refine ⟨called_base base special.toCurrent listed concerns new _,Nat.succ_pos place,event,rfl,
        called_current special.toCurrent _ _,?_,?_⟩
      · exact (List.getElem?_eq_some_iff.mp here).1
      · intro other
        exact called_take here _ (special.called other)
  | none =>
      apply universal_course base
      refine ⟨special.toCurrent,Nat.zero_le _,?_,?_⟩
      · intro seen taken registration listed early
        apply (special.called registration).mpr
        rwa [List.take_of_length_le (List.getElem?_eq_none_iff.mp here)]
      · intro registration wild
        refine iff_of_false ?_ List.not_mem_nil
        intro called
        have member := (special.called registration).mp called
        have listed := List.mem_of_mem_take member
        have type := (base.typed event.eventType registration listed).1.symm.trans wild
        cases place with
        | zero => cases member
        | succ place =>
            apply fair (Nat.succ_pos place) type
            rw [← type]
            exact here

end Dispatch

-- A bus with more in its queue, or more registrations at the ends of its lists.
structure Grown (bus next : EventBus) : Prop where
  taken : next.taken = bus.taken
  calls : next.calls = bus.calls
  phase : next.phase = bus.phase
  made : bus.made ≤ next.made
  emitted : bus.emitted <+: next.emitted
  subs : ∀ eventType, ∃ more, next.subs eventType = bus.subs eventType ++ more ∧
    ∀ registration ∈ more, bus.made ≤ registration.number

section Growth
variable {bus next : EventBus} {index place : Nat} {event : SystemEvent}

theorem grown_emitted (grown : Grown bus next) (within : bus.taken.length ≤ bus.emitted.length) (early : index < bus.taken.length) :
    next.emitted[index]? = bus.emitted[index]? := by
  obtain ⟨more,whole⟩ := grown.emitted
  rw [← whole,List.getElem?_append_left (Nat.lt_of_lt_of_le early within)]

theorem grown_old (grown : Grown bus next) {eventType : Text} {registration : Registration}
    (listed : registration ∈ next.subs eventType) (old : registration.number < bus.made) : registration ∈ bus.subs eventType := by
  obtain ⟨more,whole,new⟩ := grown.subs eventType
  rw [whole,List.mem_append] at listed
  refine listed.resolve_right ?_
  intro member
  exact absurd old (not_lt.mpr (new registration member))

theorem grown_mem (grown : Grown bus next) {eventType : Text} {registration : Registration}
    (listed : registration ∈ bus.subs eventType) : registration ∈ next.subs eventType := by
  obtain ⟨more,whole,_⟩ := grown.subs eventType
  rw [whole]
  exact List.mem_append_left _ listed

theorem grown_take (grown : Grown bus next) {eventType : Text} (within : place ≤ (bus.subs eventType).length) :
    place ≤ (next.subs eventType).length ∧ (next.subs eventType).take place = (bus.subs eventType).take place := by
  obtain ⟨more,whole,_⟩ := grown.subs eventType
  rw [whole,List.length_append]
  exact ⟨Nat.le_add_right_of_le within,List.take_append_of_le_length within⟩

theorem grown_served (base : Base bus) (grown : Grown bus next) (early : index < bus.taken.length) (served : Served bus index) :
    Served next index := by
  intro found seen emitted taken eventType registration listed before concerns
  rw [grown_emitted grown base.within early] at emitted
  rw [grown.taken] at taken
  have old := Nat.lt_of_lt_of_le before (base.seen seen (List.mem_of_getElem? taken))
  rw [grown.calls]
  exact served found seen emitted taken eventType registration (grown_old grown listed old) before concerns

theorem grown_current (base : Base bus) (grown : Grown bus next) (current : Current bus index event) :
    Current next index event := by
  have latest : index < bus.taken.length := by
    rw [← current.last]
    exact Nat.lt_succ_self index
  refine ⟨by rw [grown.taken]; exact current.last,?_,current.early,?_⟩
  · rw [grown_emitted grown base.within latest]
    exact current.emitted
  · intro other within apart
    rw [grown.taken] at within
    exact grown_served base grown within (current.others other within apart)

theorem grown_stands (base : Base bus) (grown : Grown bus next) (stands : bus.phase.Stands bus) : next.phase.Stands next := by
  rw [grown.phase]
  have idle : (∀ index, index < bus.taken.length → Served bus index) → ∀ index, index < next.taken.length → Served next index := by
    intro all index within
    rw [grown.taken] at within
    exact grown_served base grown within (all index within)
  cases phase : bus.phase with
  | fresh =>
      rw [phase] at stands
      exact idle stands
  | waiting =>
      rw [phase] at stands
      exact idle stands
  | ended =>
      rw [phase] at stands
      exact idle stands
  | specific index eventType place =>
      rw [phase] at stands
      obtain ⟨begun,event,same,special⟩ := stands
      obtain ⟨within,kept⟩ := grown_take grown special.within
      refine ⟨begun,event,same,grown_current base grown special.toCurrent,within,?_⟩
      rw [kept,grown.calls]
      exact special.called
  | universal index place =>
      rw [phase] at stands
      obtain ⟨event,general⟩ := stands
      obtain ⟨within,kept⟩ := grown_take grown general.within
      refine ⟨event,grown_current base grown general.toCurrent,within,?_,?_⟩
      · intro seen taken registration listed before
        rw [grown.taken] at taken
        have old := Nat.lt_of_lt_of_le before (base.seen seen (List.mem_of_getElem? taken))
        rw [grown.calls]
        exact general.special seen taken registration (grown_old grown listed old) before
      · rw [kept,grown.calls]
        exact general.called

theorem grown_course (course : Course bus) (grown : Grown bus next)
    (typed : ∀ eventType, ∀ registration ∈ next.subs eventType,
      registration.eventType = eventType ∧ registration.number < next.made)
    (distinct : ∀ eventType, (next.subs eventType).Nodup) : Course next := by
  have base := course.toBase
  refine ⟨⟨typed,distinct,?_,?_,?_,?_,?_,?_,?_⟩,grown_stands base grown course.stands⟩
  · rw [grown.taken]
    exact base.within.trans grown.emitted.length_le
  · rw [grown.taken]
    intro count member
    exact (base.seen count member).trans grown.made
  · rw [grown.taken,grown.calls]
    exact base.past
  · rw [grown.calls]
    exact base.once
  · rw [grown.calls]
    intro call member
    obtain ⟨event,emitted,concerns,eventType,listed⟩ := base.concerned call member
    refine ⟨event,?_,concerns,eventType,grown_mem grown listed⟩
    rw [grown_emitted grown base.within (base.past call member)]
    exact emitted
  · rw [grown.calls]
    exact base.ordered
  · rw [grown.calls]
    intro call member event emitted
    rw [grown_emitted grown base.within (base.past call member)] at emitted
    exact base.silent call member event emitted

end Growth

theorem subs_subscribe (bus : EventBus) (eventType other : Text) : (bus.subscribe eventType).subs other =
    bus.subs other ++ if other = eventType then [⟨bus.made,eventType⟩] else [] := by
  unfold EventBus.subscribe EventBus.subs
  dsimp only
  rw [get_set]
  by_cases same : other = eventType
  · rw [if_pos same,if_pos same,same]
    rfl
  · rw [if_neg same,if_neg same,List.append_nil]

theorem subscribe_course {bus : EventBus} (course : Course bus) (eventType : Text) : Course (bus.subscribe eventType) := by
  have new : ∀ other, ∀ registration ∈ (if other = eventType then [⟨bus.made,eventType⟩] else [] : List Registration),
      registration.eventType = other ∧ registration.number = bus.made := by
    intro other registration member
    split at member
    next same =>
      rw [List.mem_singleton.mp member]
      exact ⟨same.symm,rfl⟩
    next => cases member
  apply grown_course course
  · refine ⟨rfl,rfl,rfl,Nat.le_succ _,List.prefix_rfl,?_⟩
    intro other
    refine ⟨_,subs_subscribe bus eventType other,?_⟩
    intro registration member
    exact Nat.le_of_eq (new other registration member).2.symm
  · intro other registration listed
    change _ ∧ _ < bus.made + 1
    rw [subs_subscribe,List.mem_append] at listed
    rcases listed with old | member
    · obtain ⟨type,number⟩ := course.typed other registration old
      exact ⟨type,Nat.lt_succ_of_lt number⟩
    · obtain ⟨type,number⟩ := new other registration member
      exact ⟨type,by rw [number]; exact Nat.lt_succ_self _⟩
  · intro other
    rw [subs_subscribe]
    apply List.nodup_append.mpr
    refine ⟨course.distinct other,?_,?_⟩
    · split
      · exact List.nodup_singleton _
      · exact List.nodup_nil
    · rintro registration old _ member rfl
      exact absurd (course.typed other registration old).2 (Nat.not_lt.mpr (Nat.le_of_eq (new other registration member).2.symm))

section Steps
variable {bus : EventBus}

theorem stop_course (course : Course bus) : Course (bus.step .stop) := by
  have grown : Grown bus (bus.step .stop) := by
    refine ⟨rfl,rfl,rfl,Nat.le_refl _,List.prefix_rfl,?_⟩
    intro eventType
    exact ⟨[],(List.append_nil _).symm,fun _ member => absurd member List.not_mem_nil⟩
  exact grown_course course grown course.typed course.distinct

theorem emit_course (course : Course bus) (eventType : Text) : Course (bus.step (.emit eventType)) := by
  have grown : Grown bus (bus.step (.emit eventType)) := by
    refine ⟨rfl,rfl,rfl,Nat.le_refl _,List.prefix_append _ _,?_⟩
    intro eventType
    exact ⟨[],(List.append_nil _).symm,fun _ member => absurd member List.not_mem_nil⟩
  exact grown_course course grown course.typed course.distinct

theorem begin_course (course : Course bus) : Course (bus.step .begin) := by
  unfold EventBus.step
  cases phase : bus.phase with
  | fresh =>
      have stands := course.stands
      rw [phase] at stands
      exact ⟨⟨course.typed,course.distinct,course.within,course.seen,course.past,course.once,course.concerned,course.ordered,
        course.silent⟩,stands⟩
  | _ => exact course

-- The event taken is now the one in hand.
def EventBus.popped (bus : EventBus) : EventBus := {bus with taken := bus.taken ++ [bus.made]}

theorem take_some {event : SystemEvent} (waits : bus.phase = .waiting) (next : bus.emitted[bus.taken.length]? = some event) :
    bus.step .take = bus.popped.specific bus.taken.length event.eventType 0 := by
  simp only [EventBus.step,EventBus.take,waits,next]
  rfl

theorem take_none (other : bus.phase ≠ .waiting ∨ bus.emitted[bus.taken.length]? = none) : bus.step .take = bus := by
  change bus.take = bus
  unfold EventBus.take
  split
  next event waits next => exact absurd next (by rcases other with busy | empty; exact absurd waits busy; rw [empty]; simp)
  next => rfl

theorem popped_length (bus : EventBus) : bus.popped.taken.length = bus.taken.length + 1 := List.length_append

theorem popped_base (base : Base bus) {event : SystemEvent} (next : bus.emitted[bus.taken.length]? = some event) :
    Base bus.popped := by
  refine ⟨base.typed,base.distinct,?_,?_,?_,base.once,base.concerned,base.ordered,base.silent⟩
  · rw [popped_length]
    exact (List.getElem?_eq_some_iff.mp next).1
  · intro count member
    rcases List.mem_append.mp member with old | last
    · exact base.seen count old
    · exact Nat.le_of_eq (List.mem_singleton.mp last)
  · intro call member
    rw [popped_length]
    exact Nat.lt_succ_of_lt (base.past call member)

theorem popped_served {other : Nat} (early : other < bus.taken.length) (served : Served bus other) : Served bus.popped other := by
  intro event seen emitted taken
  change (bus.taken ++ [bus.made])[other]? = some seen at taken
  rw [List.getElem?_append_left early] at taken
  exact served event seen emitted taken

theorem popped_others (stands : ∀ index, index < bus.taken.length → Served bus index) (other : Nat)
    (within : other < bus.popped.taken.length) (apart : other ≠ bus.taken.length) : Served bus.popped other := by
  rw [popped_length] at within
  have early := Nat.lt_of_le_of_ne (Nat.le_of_lt_succ within) apart
  exact popped_served early (stands other early)

-- An event that concerns nobody is passed to nobody, and the loop goes round.
theorem unheard_course (base : Base bus.popped) (stands : ∀ index, index < bus.taken.length → Served bus index)
    {event : SystemEvent} (next : bus.emitted[bus.taken.length]? = some event) (none : bus.subs event.eventType = [])
    (nobody : bus.subs wildcard = []) : Course (bus.popped.specific bus.taken.length event.eventType 0) := by
  have silent : bus.popped.specific bus.taken.length event.eventType 0 = bus.popped.around := by
    unfold EventBus.specific EventBus.universal
    rw [show bus.popped.subs event.eventType = [] from none,show bus.popped.subs wildcard = [] from nobody]
    rfl
  rw [silent]
  apply around_course base
  intro other within
  by_cases same : other = bus.taken.length
  · subst same
    intro found seen emitted _ eventType registration listed _ concerns
    cases next.symm.trans emitted
    rcases concerned_listed base listed concerns with special | wild
    · rw [show bus.popped.subs event.eventType = [] from none] at special
      cases special
    · rw [show bus.popped.subs wildcard = [] from nobody] at wild
      cases wild
  · exact popped_others stands other within same

theorem take_course (course : Course bus) (fair : Fair bus .take) : Course (bus.step .take) := by
  by_cases waits : bus.phase = .waiting
  · cases next : bus.emitted[bus.taken.length]? with
    | none =>
        rw [take_none (.inr next)]
        exact course
    | some event =>
        have base := popped_base course.toBase next
        have stands := course.stands
        rw [waits] at stands
        rw [take_some waits next]
        cases late : event.late with
        | false =>
            refine specific_course base ⟨⟨(popped_length bus).symm,next,late,popped_others stands⟩,Nat.zero_le _,?_⟩
              fun begun => absurd begun (Nat.lt_irrefl 0)
            intro registration
            refine iff_of_false ?_ List.not_mem_nil
            intro called
            exact Nat.lt_irrefl _ (course.past _ called)
        | true =>
            obtain ⟨none,nobody⟩ := fair waits event next late
            exact unheard_course base stands next none nobody
  · rw [take_none (.inl waits)]
    exact course

theorem finish_course (course : Course bus) (fair : Fair bus .finish) : Course (bus.step .finish) := by
  have stands := course.stands
  cases phase : bus.phase with
  | specific index eventType place =>
      rw [phase] at stands
      obtain ⟨_,event,rfl,special⟩ := stands
      have next := specific_course course.toBase special fun _ wild => fair index place (by rw [phase,wild])
      simpa only [EventBus.step,phase] using next
  | universal index place =>
      rw [phase] at stands
      obtain ⟨event,general⟩ := stands
      have next := universal_course course.toBase general
      simpa only [EventBus.step,phase] using next
  | fresh | waiting | ended => simpa only [EventBus.step,phase] using course

theorem step_course (bus : EventBus) (label : Label) (course : Course bus) (fair : Fair bus label) : Course (bus.step label) := by
  cases label with
  | subscribe eventType => exact subscribe_course course eventType
  | emit eventType => exact emit_course course eventType
  | stop => exact stop_course course
  | begin => exact begin_course course
  | take => exact take_course course fair
  | finish => exact finish_course course fair

theorem course_exactly (bus : EventBus) (course : Course bus) : ExactlyOnce bus := by
  refine ⟨?_,course.once,course.concerned,course.ordered,course.silent⟩
  intro index within apart
  have stands := course.stands
  cases phase : bus.phase with
  | specific last eventType place =>
      rw [phase] at stands apart
      obtain ⟨_,event,_,special⟩ := stands
      exact special.others index within fun same => apart (congrArg some same.symm)
  | universal last place =>
      rw [phase] at stands apart
      obtain ⟨event,general⟩ := stands
      exact general.others index within fun same => apart (congrArg some same.symm)
  | fresh | waiting | ended =>
      rw [phase] at stands
      exact stands index within

theorem specific_calls (bus : EventBus) (index : Nat) (eventType : Text)
    (someone : ¬ (bus.subs eventType = [] ∧ bus.subs wildcard = [])) : ∃ registration,
      ⟨index,registration⟩ ∈ (bus.specific index eventType 0).calls ∧ (bus.specific index eventType 0).emitted = bus.emitted := by
  unfold EventBus.specific EventBus.universal
  cases first : (bus.subs eventType)[0]? with
  | some registration => exact ⟨registration,List.mem_append_right _ List.mem_cons_self,rfl⟩
  | none =>
      cases second : (bus.subs wildcard)[0]? with
      | some registration => exact ⟨registration,List.mem_append_right _ List.mem_cons_self,rfl⟩
      | none =>
          have empty : ∀ {listed : List Registration}, listed[0]? = none → listed = [] := fun none =>
            List.length_eq_zero_iff.mp (Nat.le_zero.mp (List.getElem?_eq_none_iff.mp none))
          exact absurd ⟨empty first,empty second⟩ someone

-- A late event is passed on as soon as it is taken.
theorem take_late {event : SystemEvent} (waits : bus.phase = .waiting) (next : bus.emitted[bus.taken.length]? = some event)
    (late : event.late = true) (someone : ¬ (bus.subs event.eventType = [] ∧ bus.subs wildcard = [])) :
    ¬ ExactlyOnce (bus.step .take) := by
  intro exactly
  obtain ⟨registration,member,same⟩ := specific_calls bus.popped bus.taken.length event.eventType someone
  rw [← take_some waits next] at member same
  have early := exactly.silent _ member event (by rw [same]; exact next)
  cases late.symm.trans early

-- The callbacks for '*' are called a second time.
theorem finish_twice (course : Course bus) {index place : Nat} (phase : bus.phase = .specific index wildcard place)
    (ended : (bus.subs wildcard)[place]? = none) : ¬ ExactlyOnce (bus.step .finish) := by
  intro exactly
  have stands := course.stands
  rw [phase] at stands
  obtain ⟨begun,event,wild,special⟩ := stands
  have whole := List.getElem?_eq_none_iff.mp ended
  have inside : 0 < (bus.subs wildcard).length := by
    have within := special.within
    rw [wild] at within
    exact Nat.lt_of_lt_of_le begun within
  have first := List.getElem?_eq_getElem inside
  have again : bus.step .finish = bus.called index (bus.subs wildcard)[0] (.universal index 1) := by
    simp only [EventBus.step,phase,EventBus.specific,ended,EventBus.universal,first]
  have before : ⟨index,(bus.subs wildcard)[0]⟩ ∈ bus.calls := by
    apply (special.called _).mpr
    rw [wild,List.take_of_length_le whole]
    exact List.getElem_mem inside
  have once := exactly.once
  rw [again] at once
  exact (List.nodup_append.mp once).2.2 _ before _ List.mem_cons_self rfl

theorem step_unfair (bus : EventBus) (label : Label) (course : Course bus) (unfair : ¬ Fair bus label) :
    ¬ ExactlyOnce (bus.step label) := by
  cases label with
  | take =>
      unfold Fair at unfair
      push Not at unfair
      obtain ⟨waits,event,next,late,someone⟩ := unfair
      exact take_late waits next late fun none => someone none.1 none.2
  | finish =>
      unfold Fair at unfair
      push Not at unfair
      obtain ⟨index,place,phase,ended⟩ := unfair
      exact finish_twice course phase ended
  | subscribe _ | emit _ | stop | begin => exact absurd trivial unfair

theorem init_course : Course .init := by
  refine ⟨⟨?_,?_,Nat.le_refl 0,?_,?_,List.nodup_nil,?_,List.Pairwise.nil,?_⟩,?_⟩
  · intro eventType registration listed
    cases listed
  · exact fun _ => List.nodup_nil
  · intro count member
    cases member
  · intro call member
    cases member
  · intro call member
    cases member
  · intro call member
    cases member
  · exact fun index within => absurd within (Nat.not_lt_zero index)

end Steps

theorem exactly_once_exact (labels : List Label) :
    Throughout EventBus.step ExactlyOnce .init labels ↔ Steps EventBus.step Fair .init labels :=
  throughout_carried course_exactly step_course step_unfair .init labels init_course

def disk : Text := ['d','i','s','k']

-- The loop is waiting for an event as it is stopped.
def stoppedWaiting : List Label := [.subscribe disk,.begin,.stop,.emit disk,.take]

theorem late_event_passed : ¬ Throughout EventBus.step ExactlyOnce .init stoppedWaiting := by
  intro always
  have passed := (throughout_end always).silent ⟨0,⟨0,disk⟩⟩ (by decide) ⟨disk,true⟩ rfl
  cases passed

end Kryvaracode.Nerve
