import Kryvaracode.MessageBus

namespace Kryvaracode.Messages
open JsonText InsertionDict

-- One message put to one subscription, in the order of dispatch.
structure Offer where
  turn : Nat
  message : Message
  place : Place

def Offer.due (offer : Offer) : Bool := Messages.due offer.turn offer.message offer.place
def Offer.raises (offer : Offer) : Bool := Messages.raises offer.turn offer.message offer.place
def Offer.delivery (offer : Offer) : Delivery := ⟨offer.turn,offer.place.index⟩

def offersFrom (places : List Place) (turn : Nat) : List Message → List Offer
  | [] => []
  | message :: rest => places.map (Offer.mk turn message) ++ offersFrom places (turn + 1) rest

def MessageBus.offers (bus : MessageBus) : List Offer := offersFrom bus.places 0 bus.queue

def turnsTo (place : Place) (delivered : List Delivery) : List Nat :=
  (delivered.filter fun delivery => delivery.place == place.index).map Delivery.turn

def dueTurns (place : Place) (turn : Nat) : List Message → List Nat
  | [] => []
  | message :: rest => if due turn message place then turn :: dueTurns place (turn + 1) rest else dueTurns place (turn + 1) rest

-- Exactly once, in the order of publication, to each subscription it is for.
def FannedOut (bus : MessageBus) : Prop :=
  ∀ place ∈ bus.places, turnsTo place (dispatchLoop bus).delivered = dueTurns place 0 bus.queue

def FailsLast (bus : MessageBus) : Prop :=
  bus.offers.Pairwise fun earlier later => earlier.raises = true → later.due = false

def reached (offers : List Offer) : List Offer := offers.takeWhile fun offer => !offer.raises

def deliveries (offers : List Offer) : List Delivery := ((reached offers).filter Offer.due).map Offer.delivery

theorem raises_undue (offer : Offer) (raised : offer.raises = true) : offer.due = false := by
  rw [Offer.raises,raises] at raised
  rw [Offer.due,due]
  cases found : verdict offer.turn offer.message offer.place with
  | passed => rfl
  | wanted => simp [found] at raised
  | broken exc => rfl

theorem deliveries_cons (offer : Offer) (rest : List Offer) : deliveries (offer :: rest) =
    if offer.raises then [] else if offer.due then offer.delivery :: deliveries rest else deliveries rest := by
  unfold deliveries reached
  cases raised : offer.raises with
  | true => simp [raised]
  | false => cases wanted : offer.due <;> simp [raised,wanted]

theorem deliveries_append (front rest : List Offer) : deliveries (front ++ rest) =
    if front.any Offer.raises then deliveries front else deliveries front ++ deliveries rest := by
  induction front with
  | nil => simp [deliveries,reached]
  | cons offer front ih =>
      rw [List.cons_append,deliveries_cons,deliveries_cons,ih,List.any_cons]
      cases raised : offer.raises with
      | true => rfl
      | false => cases offer.due <;> cases front.any Offer.raises <;> rfl

theorem fanOut_deliveries (turn : Nat) (message : Message) (places : List Place) :
    (fanOut turn message places).1 = deliveries (places.map (Offer.mk turn message)) ∧
      ((fanOut turn message places).2.isSome = (places.map (Offer.mk turn message)).any Offer.raises) := by
  induction places with
  | nil => exact ⟨rfl,rfl⟩
  | cons place rest ih =>
      have raised : (Offer.mk turn message place).raises = raises turn message place := rfl
      have wanted : (Offer.mk turn message place).due = due turn message place := rfl
      rw [fanOut_cons,List.map_cons,deliveries_cons,List.any_cons,raised,wanted,raises,due]
      cases verdict turn message place with
      | passed => simpa using ih
      | wanted => simpa [Offer.delivery] using ih
      | broken exc => simp

theorem dispatchFrom_deliveries (bus : MessageBus) (turn : Nat) (messages : List Message) :
    (dispatchFrom bus turn messages).delivered = deliveries (offersFrom bus.places turn messages) := by
  induction messages generalizing bus turn with
  | nil => rfl
  | cons message rest ih =>
      obtain ⟨first,escaped⟩ := fanOut_deliveries turn message bus.places
      rw [dispatchFrom,offersFrom,deliveries_append,← escaped,← first]
      rcases fanned : fanOut turn message bus.places with ⟨delivered,outcome⟩
      cases outcome with
      | some exc => rfl
      | none =>
          have later := ih (bus.record message) (turn + 1)
          rw [record_places] at later
          simp [later]

theorem dispatchLoop_deliveries (bus : MessageBus) : (dispatchLoop bus).delivered = deliveries bus.offers :=
  dispatchFrom_deliveries bus 0 bus.queue

-- Where nothing is due behind a failure, the loop loses nothing by it.
theorem failsLast_deliveries (offers : List Offer)
    (last : offers.Pairwise fun earlier later => earlier.raises = true → later.due = false) :
    deliveries offers = (offers.filter Offer.due).map Offer.delivery := by
  induction offers with
  | nil => rfl
  | cons offer rest ih =>
      rw [List.pairwise_cons] at last
      rw [deliveries_cons,ih last.2]
      cases raised : offer.raises with
      | true =>
          have none : rest.filter Offer.due = [] := by
            rw [List.filter_eq_nil_iff]
            intro later inside
            simp [last.1 later inside raised]
          simp [raises_undue offer raised,none]
      | false => cases wanted : offer.due <;> simp [wanted]

theorem deliveries_failsLast (offers : List Offer) (distinct : (offers.map Offer.delivery).Nodup)
    (all : ∀ offer ∈ offers, offer.due = true → offer.delivery ∈ deliveries offers) :
    offers.Pairwise fun earlier later => earlier.raises = true → later.due = false := by
  induction offers with
  | nil => exact List.Pairwise.nil
  | cons offer rest ih =>
      rw [List.map_cons,List.nodup_cons] at distinct
      rw [List.pairwise_cons]
      have tail : ∀ later ∈ rest, later.due = true → offer.raises = false ∧ later.delivery ∈ deliveries rest := by
        intro later inside wanted
        have delivered := all later (List.mem_cons_of_mem offer inside) wanted
        rw [deliveries_cons] at delivered
        cases raised : offer.raises with
        | true => simp [raised] at delivered
        | false =>
            refine ⟨rfl,?_⟩
            rw [raised] at delivered
            cases first : offer.due with
            | false => simpa [first] using delivered
            | true =>
                simp only [first,if_true,Bool.false_eq_true,if_false,List.mem_cons] at delivered
                refine delivered.resolve_left ?_
                intro same
                exact distinct.1 (same ▸ List.mem_map_of_mem inside)
      refine ⟨?_,ih distinct.2 fun later inside wanted => (tail later inside wanted).2⟩
      intro later inside raised
      by_contra wanted
      have quiet := (tail later inside (by simpa using wanted)).1
      rw [raised] at quiet
      cases quiet

theorem turnsTo_append (place : Place) (front rest : List Delivery) :
    turnsTo place (front ++ rest) = turnsTo place front ++ turnsTo place rest := by
  rw [turnsTo,List.filter_append,List.map_append]
  rfl

theorem turnsTo_absent (place : Place) (delivered : List Delivery)
    (absent : ∀ delivery ∈ delivered, delivery.place ≠ place.index) : turnsTo place delivered = [] := by
  rw [turnsTo,List.map_eq_nil_iff,List.filter_eq_nil_iff]
  intro delivery inside
  simpa using absent delivery inside

theorem mem_turnsTo (place : Place) (delivered : List Delivery) (turn : Nat) :
    turn ∈ turnsTo place delivered ↔ ⟨turn,place.index⟩ ∈ delivered := by
  simp only [turnsTo,List.mem_map,List.mem_filter,beq_iff_eq]
  refine ⟨?_,?_⟩
  · intro found
    obtain ⟨⟨held,index⟩,⟨inside,here⟩,same⟩ := found
    exact same ▸ here ▸ inside
  · intro inside
    exact ⟨_,⟨inside,rfl⟩,rfl⟩

theorem turnsTo_message (place : Place) (turn : Nat) (message : Message) (places : List Place)
    (distinct : (places.map Place.index).Nodup) (listed : place ∈ places) :
    turnsTo place (((places.map (Offer.mk turn message)).filter Offer.due).map Offer.delivery) =
      if due turn message place then [turn] else [] := by
  induction places with
  | nil => cases listed
  | cons first rest ih =>
      rw [List.map_cons,List.nodup_cons] at distinct
      have head : turnsTo place ((([first].map (Offer.mk turn message)).filter Offer.due).map Offer.delivery) =
          if first.index = place.index ∧ due turn message first = true then [turn] else [] := by
        by_cases wanted : due turn message first = true
        · by_cases same : first.index = place.index
          · simp [turnsTo,Offer.due,Offer.delivery,wanted,same]
          · simp [turnsTo,Offer.due,Offer.delivery,wanted,same]
        · simp [turnsTo,Offer.due,wanted]
      have parts : (first :: rest).map (Offer.mk turn message) =
          [first].map (Offer.mk turn message) ++ rest.map (Offer.mk turn message) := rfl
      rw [parts,List.filter_append,List.map_append,turnsTo_append,head]
      rcases List.mem_cons.mp listed with here | later
      · subst here
        have none : turnsTo place (((rest.map (Offer.mk turn message)).filter Offer.due).map Offer.delivery) = [] := by
          refine turnsTo_absent place _ ?_
          intro delivery inside same
          obtain ⟨offer,kept,rfl⟩ := List.mem_map.mp inside
          obtain ⟨other,listed,rfl⟩ := List.mem_map.mp (List.mem_filter.mp kept).1
          exact distinct.1 (same ▸ List.mem_map_of_mem listed)
        rw [none,List.append_nil]
        simp
      · have apart : first.index ≠ place.index := by
          intro same
          exact distinct.1 (same ▸ List.mem_map_of_mem later)
        rw [ih distinct.2 later,if_neg fun both => apart both.1,List.nil_append]

theorem turnsTo_due (place : Place) (turn : Nat) (places : List Place) (messages : List Message)
    (distinct : (places.map Place.index).Nodup) (listed : place ∈ places) :
    turnsTo place (((offersFrom places turn messages).filter Offer.due).map Offer.delivery) =
      dueTurns place turn messages := by
  induction messages generalizing turn with
  | nil => rfl
  | cons message rest ih =>
      rw [offersFrom,List.filter_append,List.map_append,turnsTo_append,ih,
        turnsTo_message place turn message places distinct listed,dueTurns]
      cases due turn message place <;> rfl

theorem mem_offersFrom {places : List Place} {turn : Nat} {messages : List Message} {offer : Offer}
    (inside : offer ∈ offersFrom places turn messages) : offer.place ∈ places ∧ turn ≤ offer.turn := by
  induction messages generalizing turn with
  | nil => cases inside
  | cons message rest ih =>
      rcases List.mem_append.mp inside with first | later
      · obtain ⟨place,listed,rfl⟩ := List.mem_map.mp first
        exact ⟨listed,le_rfl⟩
      · have found := ih later
        exact ⟨found.1,Nat.le_of_succ_le found.2⟩

theorem offersFrom_distinct (places : List Place) (distinct : (places.map Place.index).Nodup) (turn : Nat)
    (messages : List Message) : ((offersFrom places turn messages).map Offer.delivery).Nodup := by
  induction messages generalizing turn with
  | nil => exact List.nodup_nil
  | cons message rest ih =>
      rw [offersFrom,List.map_append,List.nodup_append]
      refine ⟨?_,ih (turn + 1),?_⟩
      · have keys : (places.map (Offer.mk turn message)).map Offer.delivery =
            (places.map Place.index).map (Delivery.mk turn) := by
          rw [List.map_map,List.map_map]
          rfl
        rw [keys]
        refine distinct.map ?_
        intro first second same
        exact congrArg Delivery.place same
      · intro first early second late same
        obtain ⟨offer,listed,rfl⟩ := List.mem_map.mp early
        obtain ⟨place,_,rfl⟩ := List.mem_map.mp listed
        obtain ⟨other,inside,rfl⟩ := List.mem_map.mp late
        have bound := (mem_offersFrom inside).2
        have turns : turn = other.turn := congrArg Delivery.turn same
        omega

theorem fanned_out_exact (bus : MessageBus) : FannedOut bus ↔ FailsLast bus := by
  refine ⟨?_,?_⟩
  · intro fanned
    refine deliveries_failsLast bus.offers (offersFrom_distinct _ (places_distinct bus) 0 bus.queue) ?_
    intro offer inside wanted
    have listed := (mem_offersFrom inside).1
    have expected : offer.turn ∈ dueTurns offer.place 0 bus.queue := by
      rw [← turnsTo_due offer.place 0 bus.places bus.queue (places_distinct bus) listed,mem_turnsTo]
      exact List.mem_map_of_mem (List.mem_filter.mpr ⟨inside,wanted⟩)
    rw [← fanned offer.place listed,dispatchLoop_deliveries] at expected
    exact (mem_turnsTo offer.place _ offer.turn).mp expected
  · intro last place listed
    rw [dispatchLoop_deliveries,failsLast_deliveries bus.offers last]
    exact turnsTo_due place 0 bus.places bus.queue (places_distinct bus) listed

-- The first subscriber's filter fails on the first message, and the loop is dead.
def brittleBus : MessageBus :=
  ((MessageBus.init.subscribe ['x'] ['*'] (fun _ _ => .ok ()) (some fun _ _ => .error (ValueError []))).subscribe ['y'] ['*']
    (fun _ _ => .ok ()) none).publish ⟨['t'],['s'],[],.system⟩

def secondPlace : Place := ⟨1,['*'],['y'],['*'],fun _ _ => .ok (),none⟩

theorem brittle_bus_loses : ¬ FannedOut brittleBus := by
  intro fanned
  have listed : secondPlace ∈ brittleBus.places := List.mem_cons_of_mem _ List.mem_cons_self
  have lost := fanned secondPlace listed
  revert lost
  decide

end Kryvaracode.Messages
