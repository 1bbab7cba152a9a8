import DeviceClient.Config.IgniteConfig
import DeviceClient.Lib.Int32
import DeviceClient.Util.JsonNumbers
import Mathlib.Data.List.Induction

/-!
# Reads of the configuration

The getters of `CIgniteConfig` look a parameter up with `GetJsonValue` and convert what
they find. A lookup that asks an object for a member it does not have creates that
member, so a read can change the tree that the reads after it, the dumps and the
comparisons of the configuration see.

* `lookupPath_snd_iff`: where a lookup leaves the tree as it was.
* `undisturbed_iff`: where a run of reads does.
-/

namespace DeviceClient

open JsonValue

namespace JsonValue

/-- `isIntegral`: `isInt64` or `isUInt64`. -/
def isIntegral : JsonValue → Bool
  | .int _ => true
  | .uint _ => true
  | .real value => decide (value.den = 1 ∧ -2 ^ 63 ≤ value ∧ value < 2 ^ 64)
  | _ => false

/-- `isDouble`. -/
def isDouble : JsonValue → Bool
  | .real _ => true
  | value => value.isIntegral

/-- `isNumeric`. -/
def isNumeric (value : JsonValue) : Bool := value.isIntegral || value.isDouble

def isString : JsonValue → Bool
  | .string _ => true
  | _ => false

def isBool : JsonValue → Bool
  | .boolean _ => true
  | _ => false

/-- `asBool` of a value for which `isBool` holds. -/
def asBoolOfBool : JsonValue → Option Bool
  | .boolean value => some value
  | _ => none

/-- `asDouble`; `toDouble` is the conversion of an integer. -/
def asDouble (toDouble : ℤ → ℚ) : JsonValue → Option ℚ
  | .null => some 0
  | .boolean value => some (if value then 1 else 0)
  | .int value => some (toDouble value)
  | .uint value => some (toDouble value)
  | .real value => some value
  | _ => none

end JsonValue

namespace IgniteConfig

/-- The conversions between numbers and texts that the getters use. -/
structure Conversions where
  toDouble : ℤ → ℚ
  valueToString : ℚ → String
  /-- `NumberToString` of a double. -/
  numberToString : ℚ → String

variable (conv : Conversions)

/-! ## Getters -/

section

variable {α : Type} (m_jsonRoot : JsonValue) (rstrKey : String)

/-- A getter: the value that it finds, converted if it is of the kind that the getter
accepts, else the default; and the tree that the lookup leaves. -/
def getter (accepts : JsonValue → Bool) (convert : JsonValue → Option α) (default : α)
    (nIndex : ℤ) : Option α × JsonValue :=
  let r := getJsonValue m_jsonRoot rstrKey nIndex
  (if accepts r.1 then convert r.1 else some default, r.2)

def getString (rstrDefaultValue : String) (nIndex : ℤ) : Option String × JsonValue :=
  getter m_jsonRoot rstrKey isString (asString conv.valueToString) rstrDefaultValue nIndex

def getInt (nDefaultValue nIndex : ℤ) : Option ℤ × JsonValue :=
  getter m_jsonRoot rstrKey isIntegral asInt nDefaultValue nIndex

def getLong (lDefaultValue nIndex : ℤ) : Option ℤ × JsonValue :=
  getter m_jsonRoot rstrKey isIntegral asInt64 lDefaultValue nIndex

def getBool (bDefaultValue : Bool) (nIndex : ℤ) : Option Bool × JsonValue :=
  getter m_jsonRoot rstrKey isBool asBoolOfBool bDefaultValue nIndex

def getDouble (dblDefaultValue : ℚ) (nIndex : ℤ) : Option ℚ × JsonValue :=
  getter m_jsonRoot rstrKey isNumeric (asDouble conv.toDouble) dblDefaultValue nIndex

/-- The size of an array, in a variable of 32 bits. -/
def arraySize : JsonValue → Option ℤ
  | .array values => some (Lib.toInt32 values.length)
  | _ => none

/-- `GetArraySize`, which has no index to pass. -/
def getArraySize : Option ℤ × JsonValue :=
  getter m_jsonRoot rstrKey isArray arraySize 0 0

/-- What `GetAsString` makes of the value: an integer of 32 bits, a double or a text; of
any other nothing. -/
def textOf (value : JsonValue) : Option String :=
  match value.asIntOfInt with
  | some n => some (toString n)
  | none =>
    if value.isDouble then (value.asDouble conv.toDouble).map conv.numberToString
    else if value.isString then value.asString conv.valueToString
    else none

def getAsString (rstrDefaultValue : String) (nIndex : ℤ) : Option String × JsonValue :=
  getter m_jsonRoot rstrKey (fun value => (textOf conv value).isSome) (textOf conv)
    rstrDefaultValue nIndex

end

/-! ## Calls -/

/-- A getter with its arguments behind the key. -/
inductive Getter where
  | getJsonValue (nIndex : ℤ)
  | getString (rstrDefaultValue : String) (nIndex : ℤ)
  | getInt (nDefaultValue nIndex : ℤ)
  | getLong (lDefaultValue nIndex : ℤ)
  | getBool (bDefaultValue : Bool) (nIndex : ℤ)
  | getDouble (dblDefaultValue : ℚ) (nIndex : ℤ)
  | getArraySize
  | getAsString (rstrDefaultValue : String) (nIndex : ℤ)

/-- What a getter returns. -/
inductive Answer where
  | value (value : JsonValue)
  | string (text : String)
  | integer (n : ℤ)
  | bool (b : Bool)
  | double (q : ℚ)

structure Call where
  rstrKey : String
  getter : Getter

namespace Getter

/-- The index that the getter passes to the lookup. -/
def nIndex : Getter → ℤ
  | .getJsonValue n | .getString _ n | .getInt _ n | .getLong _ n | .getBool _ n
  | .getDouble _ n | .getAsString _ n => n
  | .getArraySize => 0

end Getter

namespace Call

/-- The steps of the lookup that the call makes. -/
def tokens (call : Call) : List PathToken := pathTokens call.getter.nIndex call.rstrKey.toList

/-- A call: its answer, `none` where it throws, and the tree afterwards. -/
def run (call : Call) (m_jsonRoot : JsonValue) : Option Answer × JsonValue :=
  match call.getter with
  | .getJsonValue nIndex =>
    let r := getJsonValue m_jsonRoot call.rstrKey nIndex
    (some (.value r.1), r.2)
  | .getString rstrDefaultValue nIndex =>
    (getString conv m_jsonRoot call.rstrKey rstrDefaultValue nIndex).map (Option.map .string) id
  | .getInt nDefaultValue nIndex =>
    (getInt m_jsonRoot call.rstrKey nDefaultValue nIndex).map (Option.map .integer) id
  | .getLong lDefaultValue nIndex =>
    (getLong m_jsonRoot call.rstrKey lDefaultValue nIndex).map (Option.map .integer) id
  | .getBool bDefaultValue nIndex =>
    (getBool m_jsonRoot call.rstrKey bDefaultValue nIndex).map (Option.map .bool) id
  | .getDouble dblDefaultValue nIndex =>
    (getDouble conv m_jsonRoot call.rstrKey dblDefaultValue nIndex).map (Option.map .double) id
  | .getArraySize => (getArraySize m_jsonRoot call.rstrKey).map (Option.map .integer) id
  | .getAsString rstrDefaultValue nIndex =>
    (getAsString conv m_jsonRoot call.rstrKey rstrDefaultValue nIndex).map (Option.map .string) id

/-- Every getter leaves the tree that its lookup leaves. -/
theorem run_snd (call : Call) (m_jsonRoot : JsonValue) :
    (call.run conv m_jsonRoot).2 = (lookupPath call.tokens m_jsonRoot).2 := by
  obtain ⟨rstrKey, getter⟩ := call
  cases getter <;> rfl

end Call

/-- The tree after a run of calls. -/
def treeAfter (m_jsonRoot : JsonValue) (calls : List Call) : JsonValue :=
  calls.foldl (fun root call => (call.run conv root).2) m_jsonRoot

/-- The run leaves the tree as it was, at every point, and any call answers there as it
would have done before. -/
def Undisturbed (m_jsonRoot : JsonValue) (calls : List Call) : Prop :=
  ∀ n, treeAfter conv m_jsonRoot (calls.take n) = m_jsonRoot ∧
    ∀ later : Call,
      later.run conv (treeAfter conv m_jsonRoot (calls.take n)) = later.run conv m_jsonRoot

/-! ## The condition -/

/-- Somewhere on the way the walk asks an object for a member that it does not have. -/
def missesMember : List PathToken → JsonValue → Bool
  | .index n :: tokens, .array values =>
    match values[n]? with
    | none => false
    | some w => missesMember tokens w
  | .name key :: tokens, .object members =>
    match members.lookup key with
    | none => true
    | some w => missesMember tokens w
  | _, _ => false

/-- The names of every object of the tree ascend. -/
def ObjectsAscend (root : JsonValue) : Prop :=
  ∀ tokens members, root.nodeAt tokens = some (.object members) → Lib.Ascending members

theorem ObjectsAscend.of_lookup {members : List (String × JsonValue)} {key : String}
    {w : JsonValue} (h : ObjectsAscend (.object members)) (hw : members.lookup key = some w) :
    ObjectsAscend w := by
  intro tokens ms hms
  refine h (.name key :: tokens) ms ?_
  rw [nodeAt_object_name, hw]
  exact hms

theorem ObjectsAscend.of_getElem {values : List JsonValue} {n : ℕ} {w : JsonValue}
    (h : ObjectsAscend (.array values)) (hw : values[n]? = some w) : ObjectsAscend w := by
  intro tokens ms hms
  refine h (.index n :: tokens) ms ?_
  rw [nodeAt_array_index, hw]
  exact hms

theorem ObjectsAscend.object {members : List (String × JsonValue)} (h : Lib.Ascending members)
    (hmembers : ∀ key w, members.lookup key = some w → ObjectsAscend w) :
    ObjectsAscend (.object members) := by
  intro tokens ms hms
  cases tokens with
  | nil =>
    cases hms
    exact h
  | cons t tokens =>
    cases t with
    | name key =>
      rw [nodeAt_object_name, Option.bind_eq_some_iff] at hms
      obtain ⟨w, hw, hnode⟩ := hms
      exact hmembers key w hw tokens ms hnode
    | index n => cases hms
    | malformed => cases hms

/-! ## One lookup -/

/-- A lookup leaves the tree as it was iff no object on the way lacks the member that it is
asked for. -/
theorem lookupPath_snd_iff {tokens : List PathToken} {value : JsonValue}
    (h : ObjectsAscend value) :
    (lookupPath tokens value).2 = value ↔ missesMember tokens value = false := by
  induction tokens generalizing value with
  | nil => cases value <;> simp [lookupPath, missesMember]
  | cons t tokens ih =>
    cases value with
    | array values =>
      cases t with
      | index n =>
        rw [lookupPath, missesMember]
        cases hw : values[n]? with
        | none => simp
        | some w =>
          dsimp only
          rw [← ih (h.of_getElem hw), JsonValue.array.injEq]
          constructor
          · intro heq
            have hset := congrArg (fun l => l[n]?) heq
            obtain ⟨hn, -⟩ := List.getElem?_eq_some_iff.1 hw
            rw [List.getElem?_set_self hn, hw] at hset
            exact Option.some.inj hset
          · intro heq
            rw [heq]
            obtain ⟨hn, hget⟩ := List.getElem?_eq_some_iff.1 hw
            rw [← hget, List.set_getElem_self]
      | name key => simp [lookupPath, missesMember]
      | malformed => simp [lookupPath, missesMember]
    | object members =>
      cases t with
      | index n => simp [lookupPath, missesMember]
      | name key =>
        have hasc : Lib.Ascending members := h [] members rfl
        rw [lookupPath, missesMember]
        dsimp only
        rw [JsonValue.object.injEq, Lib.setKey_eq_self_iff hasc]
        cases hw : members.lookup key with
        | none => simp
        | some w =>
          dsimp only
          rw [← ih (h.of_lookup hw), Option.getD_some, Option.some.injEq]
          exact eq_comm
      | malformed => simp [lookupPath, missesMember]
    | _ => cases t <;> simp [lookupPath, missesMember]

/-- A parameter that is there is read without a write. -/
theorem missesMember_of_node {tokens : List PathToken} {value w : JsonValue}
    (h : value.nodeAt tokens = some w) : missesMember tokens value = false := by
  induction tokens generalizing value with
  | nil => cases value <;> rfl
  | cons t tokens ih =>
    cases value with
    | array values =>
      cases t with
      | index n =>
        rw [nodeAt_array_index, Option.bind_eq_some_iff] at h
        obtain ⟨u, hu, hw⟩ := h
        rw [missesMember, hu]
        exact ih hw
      | name key => cases h
      | malformed => cases h
    | object members =>
      cases t with
      | index n => cases h
      | name key =>
        rw [nodeAt_object_name, Option.bind_eq_some_iff] at h
        obtain ⟨u, hu, hw⟩ := h
        rw [missesMember, hu]
        exact ih hw
      | malformed => cases h
    | _ => cases t <;> cases h

/-! ## Runs of calls -/

theorem treeAfter_snoc (root : JsonValue) (calls : List Call) (call : Call) :
    treeAfter conv root (calls ++ [call]) =
      (lookupPath call.tokens (treeAfter conv root calls)).2 := by
  unfold treeAfter
  rw [List.foldl_append, List.foldl_cons, List.foldl_nil, Call.run_snd]

theorem treeAfter_of_present {root : JsonValue} (hroot : ObjectsAscend root) {calls : List Call}
    (h : ∀ call ∈ calls, missesMember call.tokens root = false) :
    treeAfter conv root calls = root := by
  induction calls using List.reverseRecOn with
  | nil => rfl
  | append_singleton calls call ih =>
    have hbefore := ih fun c hc => h c (List.mem_append_left _ hc)
    rw [treeAfter_snoc, hbefore, lookupPath_snd_iff hroot]
    exact h call (by simp)

/-- A run of reads leaves the configuration as it was, for whoever looks at it, iff none of
them asks an object for a member that it does not have. -/
theorem undisturbed_iff (root : JsonValue) (hroot : ObjectsAscend root) (calls : List Call) :
    Undisturbed conv root calls ↔ ∀ call ∈ calls, missesMember call.tokens root = false := by
  constructor
  · intro h call hcall
    obtain ⟨i, hi, rfl⟩ := List.mem_iff_getElem.1 hcall
    have hafter := (h (i + 1)).1
    rw [← List.take_append_getElem hi, treeAfter_snoc, (h i).1] at hafter
    exact (lookupPath_snd_iff hroot).1 hafter
  · intro h n
    have htree : treeAfter conv root (calls.take n) = root :=
      treeAfter_of_present conv hroot fun call hcall => h call (List.mem_of_mem_take hcall)
    exact ⟨htree, fun later => by rw [htree]⟩

theorem undisturbed_iff_sample :
    Undisturbed ⟨fun n => n, fun _ => "", fun _ => ""⟩ (.object []) [⟨"a", .getInt 0 0⟩] ↔
      ∀ call ∈ [(⟨"a", .getInt 0 0⟩ : Call)], missesMember call.tokens (.object []) = false :=
  undisturbed_iff _ _ (.object Lib.ascending_nil fun key w hw => by cases hw) _

/-- A quality of service that is not configured is there after it was read. -/
theorem not_undisturbed_absent :
    ¬ Undisturbed ⟨fun n => n, fun _ => "", fun _ => ""⟩ (.object [("MQTT", .object [])])
      [⟨"MQTT.qos", .getInt 0 0⟩] := by
  intro h
  have hsplit : split '.' "MQTT.qos".toList = ["MQTT", "qos"] := by simp [split]
  have htokens : Call.tokens ⟨"MQTT.qos", .getInt 0 0⟩ = names ["MQTT", "qos"] := by
    have hplain : ∀ key ∈ split '.' "MQTT.qos".toList, PlainKey key := by
      rw [hsplit]
      decide
    have htokens := pathTokens_of_plain 0 _ hplain
    rw [hsplit] at htokens
    exact htokens
  have hafter := (h 1).1
  unfold treeAfter at hafter
  rw [List.take_one, List.head?_cons, Option.toList_some, List.foldl_cons, List.foldl_nil,
    Call.run_snd, htokens] at hafter
  cases hafter

end IgniteConfig

end DeviceClient
