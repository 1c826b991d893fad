import Mathlib.Data.List.Basic

/-!
Sockets that meet at one address. One of them may bind the address, the others connect to
it; messages are posted and wait at their sender until they are delivered, which happens
only between the socket that has bound the address and one that has connected to it.
-/
namespace L2Switch.MeetingPoints

structure Parcel (Party Message : Type) where
  sender : Party
  receiver : Party
  message : Message
  deriving DecidableEq

structure Posting (Party Message : Type) where
  sender : Party
  message : Message
  deriving DecidableEq

/-- `binders` lists everyone who has ever bound the address, `delivered` everything that
ever arrived. -/
structure Meeting (Party Message : Type) where
  bound : Option Party
  connected : List Party
  posted : List (Posting Party Message)
  arrived : List (Parcel Party Message)
  binders : List Party
  delivered : List (Parcel Party Message)

variable {Party Message : Type}

def Meeting.new : Meeting Party Message :=
  { bound := none, connected := [], posted := [], arrived := [], binders := [], delivered := [] }

def Meeting.bind (meeting : Meeting Party Message) (party : Party) :
    Option (Meeting Party Message) :=
  match meeting.bound with
  | none => some { meeting with bound := some party, binders := meeting.binders ++ [party] }
  | some _ => none

def Meeting.connect (meeting : Meeting Party Message) (party : Party) : Meeting Party Message :=
  { meeting with connected := party :: meeting.connected }

def Meeting.post (meeting : Meeting Party Message) (party : Party) (message : Message) :
    Meeting Party Message :=
  { meeting with posted := meeting.posted ++ [{ sender := party, message }] }

def Meeting.Joined (meeting : Meeting Party Message) (party other : Party) : Prop :=
  (meeting.bound = some party ∧ other ∈ meeting.connected) ∨
    (meeting.bound = some other ∧ party ∈ meeting.connected)

/-- Whatever passed had the socket that bound the address at one of its ends. -/
structure Brokered (meeting : Meeting Party Message) : Prop where
  bound : ∀ party, meeting.bound = some party → party ∈ meeting.binders
  between : ∀ parcel ∈ meeting.delivered,
    parcel.sender ∈ meeting.binders ∨ parcel.receiver ∈ meeting.binders
  arrived : ∀ parcel ∈ meeting.arrived, parcel ∈ meeting.delivered

theorem new_brokered : Brokered (Meeting.new : Meeting Party Message) :=
  { bound := fun _ held => (nomatch held), between := fun _ member => nomatch member
    arrived := fun _ member => nomatch member }

/-- What neither connecting nor posting changes. -/
def Meeting.record (meeting : Meeting Party Message) :
    Option Party × List (Parcel Party Message) × List Party × List (Parcel Party Message) :=
  (meeting.bound, meeting.arrived, meeting.binders, meeting.delivered)

@[simp] theorem connect_record (meeting : Meeting Party Message) (party : Party) :
    (meeting.connect party).record = meeting.record := rfl

@[simp] theorem post_record (meeting : Meeting Party Message) (party : Party)
    (message : Message) : (meeting.post party message).record = meeting.record := rfl

theorem record_iff (meeting next : Meeting Party Message) :
    next.record = meeting.record ↔ next.bound = meeting.bound ∧ next.arrived = meeting.arrived ∧
      next.binders = meeting.binders ∧ next.delivered = meeting.delivered := by
  simp [Meeting.record]

/-- The meeting goes on from here: nobody new has bound the address but those allowed to,
and nothing that arrived is forgotten. -/
structure Goes (allowed : Party → Prop) (meeting next : Meeting Party Message) : Prop where
  brokered : Brokered next
  binders : ∀ party ∈ next.binders, party ∈ meeting.binders ∨ allowed party
  delivered : ∀ parcel ∈ meeting.delivered, parcel ∈ next.delivered

variable (allowed : Party → Prop)

theorem goes_of_record (meeting next : Meeting Party Message) (brokered : Brokered meeting)
    (same : next.record = meeting.record) : Goes allowed meeting next := by
  obtain ⟨bound, arrived, binders, delivered⟩ := (record_iff meeting next).mp same
  refine { brokered := { bound := ?_, between := ?_, arrived := ?_ }, binders := ?_
           delivered := ?_ }
  · simpa only [bound, binders] using brokered.bound
  · simpa only [delivered, binders] using brokered.between
  · simpa only [arrived, delivered] using brokered.arrived
  · exact fun party member => Or.inl (binders ▸ member)
  · exact fun parcel member => delivered ▸ member

theorem bind_goes (meeting next : Meeting Party Message) (party : Party)
    (brokered : Brokered meeting) (may : allowed party)
    (stepped : meeting.bind party = some next) : Goes allowed meeting next := by
  unfold Meeting.bind at stepped
  split at stepped <;> cases stepped
  refine { brokered := { bound := fun other held => ?_, between := fun parcel member => ?_
                         arrived := brokered.arrived }
           binders := fun other member => ?_, delivered := fun parcel member => member }
  · cases held
    exact List.mem_append_right _ List.mem_cons_self
  · exact (brokered.between parcel member).imp (List.mem_append_left _) (List.mem_append_left _)
  · rcases List.mem_append.mp member with earlier | last
    · exact Or.inl earlier
    · exact Or.inr (List.mem_singleton.mp last ▸ may)

variable [DecidableEq Party]

instance (meeting : Meeting Party Message) (party other : Party) :
    Decidable (meeting.Joined party other) :=
  inferInstanceAs (Decidable (_ ∨ _))

/-- A socket that is closed takes its connections and its messages with it. -/
def Meeting.leave (meeting : Meeting Party Message) (party : Party) : Meeting Party Message :=
  { meeting with
    bound := if meeting.bound = some party then none else meeting.bound
    connected := meeting.connected.filter (· ≠ party)
    posted := meeting.posted.filter (·.sender ≠ party)
    arrived := meeting.arrived.filter (·.receiver ≠ party) }

theorem leave_goes (meeting : Meeting Party Message) (party : Party)
    (brokered : Brokered meeting) : Goes allowed meeting (meeting.leave party) := by
  refine { brokered := { bound := fun other held => ?_, between := brokered.between
                         arrived := fun parcel member => ?_ }
           binders := fun other member => Or.inl member
           delivered := fun parcel member => member }
  · simp only [Meeting.leave] at held
    split at held
    · cases held
    · exact brokered.bound other held
  · exact brokered.arrived parcel (List.mem_filter.mp member).1

variable [DecidableEq Message]

def Meeting.deliver (meeting : Meeting Party Message) (parcel : Parcel Party Message) :
    Option (Meeting Party Message) :=
  let posting : Posting Party Message := { sender := parcel.sender, message := parcel.message }
  if meeting.Joined parcel.sender parcel.receiver ∧ posting ∈ meeting.posted then
    some { meeting with
      posted := meeting.posted.erase posting
      arrived := meeting.arrived ++ [parcel], delivered := meeting.delivered ++ [parcel] }
  else none

/-- A socket gets hold of something that has arrived at it. -/
def Meeting.take (meeting : Meeting Party Message) (parcel : Parcel Party Message) :
    Option (Meeting Party Message) :=
  if parcel ∈ meeting.arrived then
    some { meeting with arrived := meeting.arrived.erase parcel }
  else none

theorem deliver_goes (meeting next : Meeting Party Message) (parcel : Parcel Party Message)
    (brokered : Brokered meeting) (stepped : meeting.deliver parcel = some next) :
    Goes allowed meeting next := by
  simp only [Meeting.deliver] at stepped
  split at stepped
  · next joined =>
      cases stepped
      refine { brokered := { bound := brokered.bound, between := fun other member => ?_
                             arrived := fun other member => ?_ }
               binders := fun other member => Or.inl member
               delivered := fun other member => List.mem_append_left _ member }
      · rcases List.mem_append.mp member with earlier | last
        · exact brokered.between other earlier
        · obtain rfl := List.mem_singleton.mp last
          exact joined.1.imp (fun side => brokered.bound _ side.1)
            (fun side => brokered.bound _ side.1)
      · rcases List.mem_append.mp member with earlier | last
        · exact List.mem_append_left _ (brokered.arrived other earlier)
        · exact List.mem_append_right _ last
  · cases stepped

theorem take_goes (meeting next : Meeting Party Message) (parcel : Parcel Party Message)
    (brokered : Brokered meeting) (stepped : meeting.take parcel = some next) :
    Goes allowed meeting next ∧ parcel ∈ meeting.delivered := by
  unfold Meeting.take at stepped
  split at stepped
  · next here =>
      cases stepped
      refine ⟨{ brokered := { bound := brokered.bound, between := brokered.between
                              arrived := fun other member => ?_ }
                binders := fun other member => Or.inl member
                delivered := fun other member => member }, brokered.arrived parcel here⟩
      exact brokered.arrived other (List.mem_of_mem_erase member)
  · cases stepped

end L2Switch.MeetingPoints
