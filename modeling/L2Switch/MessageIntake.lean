import L2Switch.ContainerMessages

/-!
What `get_msg` keeps of a text that names a client and a code. The fields are taken as
the text writes them, numbers without a width; the engine holds an id of 16 bits.
-/
namespace L2Switch.MessageIntake
open Json EngineMessages RequestReply RingChannel

variable (from_str : String → Option Value)

/-- The text is an object whose field of that name is the integer. -/
def Names (request : ByteArray) (field : String) (number : Nat) : Prop :=
  ∃ smsg members literal, String.fromUTF8? request = some smsg ∧
    from_str smsg = some (.object members) ∧
    (Value.object members).index field = .number literal ∧
    literal.all Char.isDigit = true ∧ Nat.ofDigitChars 10 literal 0 = number

/-- This call takes the text and sets `new_msg`. -/
def Sets (engine : Engine) (request : ByteArray) (id : UInt16) (m : UInt64) : Prop :=
  let got := getMsg from_str engine (.readable true request)
  got.1 = .ok () ∧ got.2.new_msg = some (id, m)

/-- The call on this text is an error that leaves `new_msg` as it was. -/
def Refuses (engine : Engine) (request : ByteArray) : Prop :=
  let got := getMsg from_str engine (.readable true request)
  got.1.isOk = false ∧ got.2.new_msg = engine.new_msg

/-- An engine that receives the text acts on the client and code it names, if any. -/
structure ActsOnNamed (request : ByteArray) : Prop where
  named : ∀ engine, engine.socket.state = .listening → ∀ id m, Sets from_str engine request id m →
    Names from_str request "id" id.toNat ∧ Names from_str request "msg" m.toNat
  refused : ∀ engine, engine.socket.state = .listening →
    (¬ ∃ id : UInt16, ∃ m : UInt64,
      Names from_str request "id" id.toNat ∧ Names from_str request "msg" m.toNat) →
    Refuses from_str engine request

/-- Different ids in the two texts are different clients to the engine. -/
def KeptApart (first second : ByteArray) : Prop :=
  ∀ n n', Names from_str first "id" n → Names from_str second "id" n' → n ≠ n' →
    ∀ engine engine' id id' m m', engine.socket.state = .listening →
      engine'.socket.state = .listening → Sets from_str engine first id m →
      Sets from_str engine' second id' m' → id ≠ id'

/-- Both fields are unsigned 64-bit integers, and the id takes more than 16 bits. -/
def WideId (request : ByteArray) : Prop :=
  ∃ n m, Names from_str request "id" n ∧ Names from_str request "msg" m ∧
    UInt16.size ≤ n ∧ n < UInt64.size ∧ m < UInt64.size

theorem names_unique (request : ByteArray) (field : String) (n n' : Nat)
    (names : Names from_str request field n) (again : Names from_str request field n') : n = n' := by
  obtain ⟨smsg, members, literal, text, object, number, _, rfl⟩ := names
  obtain ⟨smsg', members', literal', text', object', number', _, rfl⟩ := again
  cases text.symm.trans text'
  cases object.symm.trans object'
  cases number.symm.trans number'
  rfl

theorem asU64_some (value : Value) (m : UInt64) :
    value.asU64 = some m ↔ ∃ literal, value = .number literal ∧
      literal.all Char.isDigit = true ∧ Nat.ofDigitChars 10 literal 0 = m.toNat := by
  cases value with
  | number literal =>
      simp only [Value.asU64, Option.ite_none_right_eq_some, Option.some.injEq, Value.number.injEq]
      constructor
      · rintro ⟨⟨digits, fits⟩, rfl⟩
        exact ⟨literal, rfl, digits, (UInt64.toNat_ofNat_of_lt' fits).symm⟩
      · rintro ⟨_, rfl, digits, value⟩
        exact ⟨⟨digits, value ▸ m.toNat_lt⟩, UInt64.toNat_inj.mp (by simp [value])⟩
  | null => simp [Value.asU64]
  | bool => simp [Value.asU64]
  | string => simp [Value.asU64]
  | array => simp [Value.asU64]
  | object => simp [Value.asU64]

/-- What a field of a parsed text is worth as an integer is what the text names. -/
theorem names_iff (request : ByteArray) (smsg : String) (data : Value) (field : String)
    (text : String.fromUTF8? request = some smsg) (parsed : from_str smsg = some data)
    (m : UInt64) :
    Names from_str request field m.toNat ↔ (data.index field).asU64 = some m := by
  rw [asU64_some]
  constructor
  · rintro ⟨_, members, literal, text', object, number, digits, value⟩
    cases text.symm.trans text'
    cases parsed.symm.trans object
    exact ⟨literal, number, digits, value⟩
  · rintro ⟨literal, number, digits, value⟩
    cases data with
    | object members => exact ⟨smsg, members, literal, text, parsed, number, digits, value⟩
    | null => cases number
    | bool => cases number
    | number => cases number
    | string => cases number
    | array => cases number

/-- A text decodes exactly when it names two integers of 64 bits; the first is cut. -/
theorem decode_ok (request : ByteArray) (id : UInt16) (m : UInt64) :
    decode from_str request = .ok (id, m) ↔
      ∃ wide : UInt64, Names from_str request "id" wide.toNat ∧
        Names from_str request "msg" m.toNat ∧ wide.toUInt16 = id := by
  cases text : String.fromUTF8? request with
  | none => simp [decode, Names, text]
  | some smsg =>
      cases parsed : from_str smsg with
      | none => simp [decode, Names, text, parsed]
      | some data =>
          simp only [decode, text, parsed, names_iff from_str request smsg data _ text parsed]
          cases (data.index "id").asU64 with
          | none => simp
          | some wide => cases (data.index "msg").asU64 <;> simp [and_comm]

theorem sets_iff (engine : Engine) (listening : engine.socket.state = .listening)
    (request : ByteArray) (id : UInt16) (m : UInt64) :
    Sets from_str engine request id m ↔ decode from_str request = .ok (id, m) := by
  rcases getMsg_received from_str engine request listening with
    ⟨msg, decoded, taken⟩ | ⟨failure, decoded, taken⟩
  · simp [Sets, taken, decoded]
  · simp [Sets, taken, decoded]

theorem refuses_iff (engine : Engine) (listening : engine.socket.state = .listening)
    (request : ByteArray) :
    Refuses from_str engine request ↔ ∀ msg, decode from_str request ≠ .ok msg := by
  rcases getMsg_received from_str engine request listening with
    ⟨msg, decoded, taken⟩ | ⟨failure, decoded, taken⟩
  · simp [Refuses, taken, decoded, Except.isOk, Except.toBool]
  · simp [Refuses, taken, decoded, Except.isOk, Except.toBool]

/-- An id of 16 bits is not cut. -/
theorem named_of_decode (request : ByteArray) (narrow : ¬ WideId from_str request) (id : UInt16)
    (m : UInt64) (decoded : decode from_str request = .ok (id, m)) :
    Names from_str request "id" id.toNat ∧ Names from_str request "msg" m.toNat := by
  obtain ⟨wide, named, coded, rfl⟩ := (decode_ok from_str request id m).mp decoded
  have fits : wide.toNat < UInt16.size := by
    by_contra long
    exact narrow ⟨_, _, named, coded, Nat.le_of_not_lt long, wide.toNat_lt, m.toNat_lt⟩
  have uncut : wide.toUInt16.toNat = wide.toNat := by
    simpa using Nat.mod_eq_of_lt fits
  rw [uncut]
  exact ⟨named, coded⟩

theorem actsOnNamed_iff (request : ByteArray) :
    ActsOnNamed from_str request ↔ ¬ WideId from_str request := by
  constructor
  · rintro acts ⟨n, m, named, coded, long, idFits, codeFits⟩
    have decoded : decode from_str request = .ok ((UInt64.ofNat n).toUInt16, UInt64.ofNat m) := by
      rw [decode_ok]
      refine ⟨.ofNat n, ?_, ?_, rfl⟩
      · rwa [UInt64.toNat_ofNat_of_lt' idFits]
      · rwa [UInt64.toNat_ofNat_of_lt' codeFits]
    have set := (sets_iff from_str Engine.new rfl request _ _).mpr decoded
    have same := names_unique from_str request "id" _ _ named
      (acts.named Engine.new rfl _ _ set).1
    rw [same] at long
    exact absurd (UInt64.ofNat n).toUInt16.toNat_lt (Nat.not_lt.mpr long)
  · intro narrow
    constructor
    · intro engine listening id m set
      exact named_of_decode from_str request narrow id m
        ((sets_iff from_str engine listening request id m).mp set)
    · intro engine listening unnamed
      rw [refuses_iff from_str engine listening]
      rintro ⟨id, m⟩ decoded
      exact unnamed ⟨id, m, named_of_decode from_str request narrow id m decoded⟩

theorem keptApart_of_acts (first second : ByteArray) (acts : ActsOnNamed from_str first)
    (actsToo : ActsOnNamed from_str second) : KeptApart from_str first second := by
  intro n n' named named' different engine engine' id id' m m' listening listening' set set' same
  have ours := names_unique from_str first "id" _ _ named (acts.named engine listening _ _ set).1
  have theirs := names_unique from_str second "id" _ _ named'
    (actsToo.named engine' listening' _ _ set').1
  exact different (by rw [ours, theirs, same])

/-- The engine acts only on the ids two texts name exactly when neither is too wide for it. -/
theorem acts_on_named_iff (first second : ByteArray) :
    (ActsOnNamed from_str first ∧ ActsOnNamed from_str second ∧ KeptApart from_str first second) ↔
      ¬ WideId from_str first ∧ ¬ WideId from_str second := by
  rw [← actsOnNamed_iff, ← actsOnNamed_iff]
  exact ⟨fun all => ⟨all.1, all.2.1⟩,
    fun both => ⟨both.1, both.2, keptApart_of_acts from_str first second both.1 both.2⟩⟩

def wideStart : String := "\x7b\"id\": 65537, \"msg\": 0\x7d"

/-- A start for 65537 is taken as a start for client 1. -/
theorem wide_id_taken : ¬ ActsOnNamed Json.parse (ContainerMessages.messageOf wideStart) := by
  have fields : (Json.parse wideStart).map
      (fun data => ((data.index "id").asU64, (data.index "msg").asU64)) =
        some (some 65537, some 0) := by
    decide +kernel
  obtain ⟨data, parsed, values⟩ := Option.map_eq_some_iff.mp fields
  obtain ⟨id, m⟩ := Prod.mk.inj values
  have named := names_iff Json.parse _ _ _ "id" (ContainerMessages.fromUTF8_messageOf wideStart)
    parsed 65537
  have coded := names_iff Json.parse _ _ _ "msg" (ContainerMessages.fromUTF8_messageOf wideStart)
    parsed 0
  rw [actsOnNamed_iff]
  exact fun narrow => narrow ⟨_, _, named.mpr id, coded.mpr m, by decide, by decide, by decide⟩

end L2Switch.MessageIntake
