import OperationFrontLine.Ban.Invariant
import OperationFrontLine.Wire.Agreement

/-!
# A login and a save

The statistics of an account go out in the reply of `mycallback`, become the
record of the player in `PCS_RNK_CreateRecord`, and come back with his
`PublishAccount`.  The scripts print every number with six significant digits,
so a longer one comes back as its leading digit.
-/

namespace OperationFrontLine.Wire

open OperationFrontLine.Library OperationFrontLine.Native

structure Statistics where
  rank : ℤ
  level : ℤ
  matches' : ℤ
  wins : ℤ
  losses : ℤ
  kills : ℤ
  chickens : ℤ
  deriving DecidableEq, Repr

namespace Statistics

def toList (statistics : Statistics) : List ℤ :=
  [statistics.rank, statistics.level, statistics.matches', statistics.wins, statistics.losses,
    statistics.kills, statistics.chickens]

def map (change : ℤ → ℤ) (statistics : Statistics) : Statistics :=
  ⟨change statistics.rank, change statistics.level, change statistics.matches',
    change statistics.wins, change statistics.losses, change statistics.kills,
    change statistics.chickens⟩

theorem map_eq_self_iff (change : ℤ → ℤ) (statistics : Statistics) :
    statistics.map change = statistics ↔ ∀ number ∈ statistics.toList, change number = number := by
  cases statistics
  simp [map, toList]

end Statistics

/-- `OPFL_Account` as `GetAccount` and `GetBanData` fill it. -/
structure AccountRow where
  uidName : Text
  statistics : Statistics
  administration : Ban.Account
  deriving DecidableEq, Repr

namespace AccountRow

def numbers (row : AccountRow) : List ℤ :=
  let banned := row.administration.banned
  row.statistics.toList ++ [row.administration.left, banned.year, banned.month, banned.day,
    banned.hour, banned.minute, banned.second]

def reply (row : AccountRow) (isBanned : Bool) : Text :=
  ['@', '[', '$', adUnit] ++ row.uidName ++ [adUnit] ++
    row.numbers.flatMap (fun number => [',', '-'] ++ printInteger number) ++
    [',', '+'] ++ printNatural 10 (if isBanned then 1 else 0) ++ [']']

end AccountRow

section Script

variable {Scalar : Type}

def ScriptValue.isScalar : ScriptValue Scalar → Bool
  | .scalar _ => true
  | _ => false

def ScriptValue.isString : ScriptValue Scalar → Bool
  | .string _ => true
  | _ => false

/-- The part of `PCS_RNK_CreateRecord` that fills an existing record: a name and
fourteen numbers are asked for, and the numbers are copied. -/
def createRecord (record this : List (ScriptValue Scalar)) : Option (List (ScriptValue Scalar)) :=
  if (this.take 1).all ScriptValue.isString ∧ ((this.drop 1).take 14).all ScriptValue.isScalar ∧
      15 ≤ this.length then
    match this[15]? with
    | some (ScriptValue.bool true) =>
        (List.range' 1 14).foldlM
          (fun record i => (this[i]?).map fun value => record.set i value) record
    | _ => none
  else
    none

/-- The record made by `PCS_RNK_AddPlayer` before the reply is there. -/
def defaultRecord (numbers : ScriptNumbers Scalar) (uidName : Text) :
    List (ScriptValue Scalar) :=
  .string uidName :: List.replicate 14 (.scalar (numbers.ofInt 0))

/-- The frame handler gets the reply, takes the flag off and activates the
record. -/
def activate (numbers : ScriptNumbers Scalar) (record : List (ScriptValue Scalar))
    (handle : List (ScriptValue Scalar)) (reply : Text) : Option (List (ScriptValue Scalar)) :=
  match ScriptValue.parseArmaData numbers reply with
  | some (.array cock) => createRecord record (cock.dropLast ++ [.bool true, .array handle])
  | _ => none

def publishAccountName : Text := "PublishAccount".toList

/-- `["opfl", "PublishAccount", [handle select 0, record]] call PCS_CallExtension` -/
def publishCall [DecidableEq Scalar] (numbers : ScriptNumbers Scalar)
    (input : ScriptValue Scalar) (record : List (ScriptValue Scalar)) : Text :=
  publishAccountName ++ adSeperator ::
    (ScriptValue.array [input, .array record]).deparseArmaData numbers

end Script

section Native

variable {Single : Type}

/-- `AsType<ARMA_ARRAY>()->at(index)` -/
def ArmaData.at? (data : ArmaData Single) (index : ℕ) : Option (ArmaData Single) :=
  match data with
  | .array elements => elements[index]?
  | _ => none

/-- `AsType<long long int>()` -/
def ArmaData.asSigned : ArmaData Single → Option ℤ
  | .signed value => some value
  | _ => none

/-- The `PublishAccount` branch of `mycallback`, up to `WriteAccount`. -/
def publishAccount (data : ArmaData Single) : Option Statistics := do
  let actArray ← data.at? 1
  let rank ← (actArray.at? 1).bind ArmaData.asSigned
  let level ← (actArray.at? 2).bind ArmaData.asSigned
  let matches' ← (actArray.at? 3).bind ArmaData.asSigned
  let wins ← (actArray.at? 4).bind ArmaData.asSigned
  let losses ← (actArray.at? 5).bind ArmaData.asSigned
  let kills ← (actArray.at? 6).bind ArmaData.asSigned
  let chickens ← (actArray.at? 7).bind ArmaData.asSigned
  return ⟨rank, level, matches', wins, losses, kills, chickens⟩

end Native

/-- What `WriteAccount` gets for what `GetAccount` had read; `input` is the
address of the session, as the reply to its `Connect` gave it. -/
def loginAndSave {Scalar Single : Type} [DecidableEq Scalar] (numbers : ScriptNumbers Scalar)
    (floats : FloatFormat Single) (row : AccountRow) (isBanned : Bool) (input output : Text) :
    Option Statistics := do
  let record ← activate numbers (defaultRecord numbers row.uidName)
    [.text input, .text output] (row.reply isBanned)
  match ArmaMessage.parseArmaData floats (publishCall numbers (.text input) record) with
  | .ok message => publishAccount message.data
  | .error _ => none

theorem AccountRow.reply_eq (row : AccountRow) (isBanned : Bool) :
    row.reply isBanned = arrayText ((adString :: adUnit :: (row.uidName ++ [adUnit])) ::
      (row.numbers.map (fun number => adSigned :: printInteger number) ++
        [adUnsigned :: printNatural 10 (if isBanned then 1 else 0)])) := by
  rw [arrayText, joined_eq_flatMap, List.flatMap_append, List.flatMap_map]
  simp [reply, adArray, adAsLeft, adString, adSigned, adUnsigned, adSeperator, adAsRight]

/-- What is needed of a row besides its statistics: a name that fits into the
format, and a ban counter and date as the sessions keep them. -/
structure AccountRow.Valid (row : AccountRow) : Prop where
  nameNonempty : row.uidName ≠ []
  nameNoUnit : adUnit ∉ row.uidName
  nameNoArray : adArray ∉ row.uidName
  left : 0 ≤ row.administration.left ∧ row.administration.left ≤ 5
  banned : Ban.FitsText row.administration.banned

theorem AccountRow.Valid.numbers_small {row : AccountRow} (valid : row.Valid)
    (exact_floats : ∀ number ∈ row.statistics.toList, number.natAbs ≤ 2 ^ 24) :
    ∀ number ∈ row.numbers, number.natAbs ≤ 2 ^ 24 := by
  obtain ⟨-, -, -, left, year, month, day, hour, minute, second⟩ := valid
  intro number member
  rcases List.mem_append.mp member with statistic | other
  · exact exact_floats number statistic
  · simp only [List.mem_cons, List.not_mem_nil, or_false] at other
    omega

section Script

variable {Scalar : Type} (numbers : ScriptNumbers Scalar)

/-- The scripts read the reply as the name, the numbers and the flag. -/
theorem parse_reply {row : AccountRow} (valid : row.Valid)
    (small : ∀ number ∈ row.numbers, number.natAbs ≤ 2 ^ 24) (isBanned : Bool) :
    ScriptValue.parseArmaData numbers (row.reply isBanned) =
      some (.array (.string row.uidName ::
        (row.numbers.map (fun number => .scalar (numbers.ofInt number)) ++
          [.scalar (numbers.parseNumber (printNatural 10 (if isBanned then 1 else 0)))]))) := by
  let pairs : List (Text × ScriptValue Scalar) :=
    (adString :: adUnit :: (row.uidName ++ [adUnit]), .string row.uidName) ::
      (row.numbers.map (fun number =>
          (adSigned :: printInteger number, .scalar (numbers.ofInt number))) ++
        [(adUnsigned :: printNatural 10 (if isBanned then 1 else 0),
          .scalar (numbers.parseNumber (printNatural 10 (if isBanned then 1 else 0))))])
  have encodes : Encodes (ScriptValue.Leaf numbers) .array (arrayText (pairs.map Prod.fst))
      (.array (pairs.map Prod.snd)) := by
    refine .array (List.cons_ne_nil _ _) fun element member => ?_
    rcases List.mem_cons.mp member with rfl | rest
    · exact .leaf (.string valid.nameNoUnit)
    · rcases List.mem_append.mp rest with mapped | flag
      · obtain ⟨number, present, rfl⟩ := List.mem_map.mp mapped
        dsimp only
        rw [← numbers.parseNumber_printInteger number (small number present)]
        exact .leaf (.scalar (.inr (.inr rfl)) (plain_printInteger number))
      · rw [List.mem_singleton.mp flag]
        exact .leaf (.scalar (.inr (.inl rfl)) (plain_printNatural (by decide) (by decide) _))
  have read := ScriptValue.parseArmaData_of_encodes encodes
  simpa [pairs, row.reply_eq, Function.comp_def] using read

theorem activate_reply {row : AccountRow} (valid : row.Valid)
    (small : ∀ number ∈ row.numbers, number.natAbs ≤ 2 ^ 24) (isBanned : Bool)
    (handle : List (ScriptValue Scalar)) :
    activate numbers (defaultRecord numbers row.uidName) handle (row.reply isBanned) =
      some (.string row.uidName ::
        row.numbers.map fun number => .scalar (numbers.ofInt number)) := by
  rw [activate, parse_reply numbers valid small]
  simp only
  rw [← List.cons_append, List.dropLast_concat]
  rfl

variable [DecidableEq Scalar]

theorem publishCall_eq {row : AccountRow}
    (small : ∀ number ∈ row.numbers, number.natAbs ≤ 2 ^ 24) (input : Text) :
    publishCall numbers (.text input) (.string row.uidName ::
        row.numbers.map fun number => .scalar (numbers.ofInt number)) =
      publishAccountName ++ adSeperator :: arrayText [adAddress :: input,
        arrayText ((adString :: adUnit :: (row.uidName ++ [adUnit])) ::
          row.numbers.map fun number => adSigned :: printGeneral number)] := by
  have record : (row.numbers.map fun number => ScriptValue.scalar (numbers.ofInt number)).map
      (ScriptValue.deparseArmaData numbers) =
        row.numbers.map fun number => adSigned :: printGeneral number := by
    rw [List.map_map]
    refine List.map_congr_left fun number member => ?_
    rw [Function.comp_apply, ScriptValue.deparse_scalar numbers (small number member)]
  have name : (ScriptValue.string row.uidName).deparseArmaData numbers =
      adString :: adUnit :: (row.uidName ++ [adUnit]) := by
    rw [ScriptValue.deparseArmaData]
  have address : (ScriptValue.text input).deparseArmaData numbers = adAddress :: input := by
    rw [ScriptValue.deparseArmaData]
  have inner := ScriptValue.deparse_array numbers (List.cons_ne_nil (.string row.uidName)
    (row.numbers.map fun number => ScriptValue.scalar (numbers.ofInt number)))
  rw [List.map_cons, record, name] at inner
  rw [publishCall, ScriptValue.deparse_array numbers (List.cons_ne_nil _ _), List.map_cons,
    List.map_singleton, inner, address]

end Script

/-- What the extension makes of a number that the scripts print. -/
def saved (number : ℤ) : ℤ := ((stoll (printGeneral number)).getD 0)

theorem stoll_printGeneral {number : ℤ} (small : number.natAbs ≤ 2 ^ 24) :
    stoll (printGeneral number) = some (saved number) ∧
      (saved number = number ↔ number.natAbs < 10 ^ 6) := by
  obtain ⟨read, digits, bounded, exact_iff⟩ := readInteger_printGeneral number
  have noSpace : skipSpace (printGeneral number) = printGeneral number := by
    cases printed : printGeneral number with
    | nil => rfl
    | cons first rest =>
        have known := printGeneral_characters number first (by simp [printed])
        have kept : isSpace first = false := by
          rcases known with digit | sign
          · exact isSpace_of_isDigitOf digit
          · simp only [List.mem_cons, List.not_mem_nil, or_false] at sign
            rcases sign with rfl | rfl | rfl | rfl <;> rfl
        simp [skipSpace, kept]
  have value : stoll (printGeneral number) = some read.1 := by
    rw [stoll, noSpace, digits, Option.bind_some, if_pos (by omega)]
  rw [saved, value]
  exact ⟨rfl, exact_iff⟩

theorem plain_printGeneral (number : ℤ) : ∀ character ∈ printGeneral number, Plain character := by
  intro character member
  rcases printGeneral_characters number character member with digit | sign
  · exact plain_of_isDigitOf digit
  · simp only [List.mem_cons, List.not_mem_nil, or_false] at sign
    rcases sign with rfl | rfl | rfl | rfl <;> decide

section Native

variable {Single : Type} (floats : FloatFormat Single)

/-- The extension reads the call as the address and the saved record. -/
theorem parse_publishCall {row : AccountRow} (valid : row.Valid)
    (small : ∀ number ∈ row.numbers, number.natAbs ≤ 2 ^ 24) {input : Text}
    (address : input ≠ []) (digits : ∀ character ∈ input, isDigitOf 16 character = true) :
    ArmaMessage.parseArmaData floats (publishAccountName ++ adSeperator ::
        arrayText [adAddress :: input,
          arrayText ((adString :: adUnit :: (row.uidName ++ [adUnit])) ::
            row.numbers.map fun number => adSigned :: printGeneral number)]) =
      .ok ⟨true, publishAccountName, .array [.address (extractHex input),
        .array (.string row.uidName :: row.numbers.map fun number => .signed (saved number))]⟩ := by
  have record : Encodes (ArmaData.Leaf floats) .array
      (arrayText ((adString :: adUnit :: (row.uidName ++ [adUnit])) ::
        row.numbers.map fun number => adSigned :: printGeneral number))
      (.array (.string row.uidName :: row.numbers.map fun number => .signed (saved number))) := by
    let pairs : List (Text × ArmaData Single) :=
      (adString :: adUnit :: (row.uidName ++ [adUnit]), .string row.uidName) ::
        row.numbers.map fun number => (adSigned :: printGeneral number, .signed (saved number))
    have encodes : Encodes (ArmaData.Leaf floats) .array (arrayText (pairs.map Prod.fst))
        (.array (pairs.map Prod.snd)) := by
      refine .array (List.cons_ne_nil _ _) fun element member => ?_
      rcases List.mem_cons.mp member with rfl | mapped
      · exact .leaf (.string valid.nameNonempty valid.nameNoUnit valid.nameNoArray)
      · obtain ⟨number, present, rfl⟩ := List.mem_map.mp mapped
        have value := (stoll_printGeneral (small number present)).1
        have nonempty : printGeneral number ≠ [] := by
          rintro none_printed
          simp [none_printed, stoll, skipSpace, readInteger, readNatural] at value
        exact .leaf (ArmaData.leaf_signed floats nonempty (plain_printGeneral number) value)
    simpa [pairs, Function.comp_def] using encodes
  have call : FunctionName publishAccountName :=
    ⟨by decide, by decide, by rintro first ⟨⟩; decide⟩
  rw [ArmaMessage.parse_call floats call (by simp [arrayText])]
  have handle : Encodes (ArmaData.Leaf floats) .array (adAddress :: input)
      (.address (extractHex input)) :=
    .leaf (ArmaData.leaf_address floats address fun character member =>
      plain_of_isDigitOf (digits character member))
  let pairs : List (Text × ArmaData Single) :=
    [(adAddress :: input, .address (extractHex input)),
      (arrayText ((adString :: adUnit :: (row.uidName ++ [adUnit])) ::
          row.numbers.map fun number => adSigned :: printGeneral number),
        .array (.string row.uidName :: row.numbers.map fun number => .signed (saved number)))]
  have encodes : ∀ element ∈ pairs,
      Encodes (ArmaData.Leaf floats) .array element.1 element.2 := by
    intro element member
    rcases List.mem_pair.mp member with rfl | rfl
    · exact handle
    · exact record
  have read := ArmaData.buildData_arrayText (List.cons_ne_nil _ _) encodes le_rfl
  simp only [List.map_cons, List.map_nil] at read
  rw [read]
  rfl

end Native

section Save

variable {Scalar Single : Type} [DecidableEq Scalar] (numbers : ScriptNumbers Scalar)
  (floats : FloatFormat Single)

theorem loginAndSave_eq {row : AccountRow} (valid : row.Valid)
    (exact_floats : ∀ number ∈ row.statistics.toList, number.natAbs ≤ 2 ^ 24) (isBanned : Bool)
    {input : Text} (address : input ≠ [])
    (digits : ∀ character ∈ input, isDigitOf 16 character = true) (output : Text) :
    loginAndSave numbers floats row isBanned input output = some (row.statistics.map saved) := by
  have small := valid.numbers_small exact_floats
  rw [loginAndSave, activate_reply numbers valid small, Option.bind_eq_bind, Option.bind_some,
    publishCall_eq numbers small, parse_publishCall floats valid small address digits]
  rfl

/-- The statistics survive the login and the save exactly when none of them
has more than six digits. -/
theorem loginAndSave_iff {row : AccountRow} (valid : row.Valid)
    (exact_floats : ∀ number ∈ row.statistics.toList, number.natAbs ≤ 2 ^ 24) (isBanned : Bool)
    {input : Text} (address : input ≠ [])
    (digits : ∀ character ∈ input, isDigitOf 16 character = true) (output : Text) :
    loginAndSave numbers floats row isBanned input output = some row.statistics ↔
      ∀ number ∈ row.statistics.toList, number.natAbs < 10 ^ 6 := by
  rw [loginAndSave_eq numbers floats valid exact_floats isBanned address digits,
    Option.some.injEq, Statistics.map_eq_self_iff]
  exact forall₂_congr fun number member => (stoll_printGeneral (exact_floats number member)).2

end Save

/-- A million kills are saved as one. -/
theorem loginAndSave_million :
    let row : AccountRow := ⟨"76561198000000000".toList, ⟨3, 250, 40, 22, 18, 1000000, 17⟩,
      ⟨0, ⟨2020, 1, 1, 0, 0, 0⟩⟩⟩
    let floats : FloatFormat ℤ := ⟨stoll, fun _ => printInteger⟩
    loginAndSave wholeNumbers floats row false "00A0".toList "00A4".toList =
        some ⟨3, 250, 40, 22, 18, 1, 17⟩ ∧
      ¬loginAndSave wholeNumbers floats row false "00A0".toList "00A4".toList =
        some row.statistics := by
  decide +kernel

theorem loginAndSave_iff_six_digits :
    let row : AccountRow := ⟨"76561198000000000".toList, ⟨3, 250, 40, 22, 18, 999999, 17⟩,
      ⟨0, ⟨2020, 1, 1, 0, 0, 0⟩⟩⟩
    let floats : FloatFormat ℤ := ⟨stoll, fun _ => printInteger⟩
    loginAndSave wholeNumbers floats row false "00A0".toList "00A4".toList =
      some row.statistics := by
  refine (loginAndSave_iff wholeNumbers _ ⟨by decide, by decide, by decide, by decide, ?_⟩
    (by decide) false (by decide) (List.all_eq_true.mp (by decide)) _).mpr (by decide)
  constructor <;> decide

end OperationFrontLine.Wire
