import DeviceClient.Lib.KeyedList
import DeviceClient.Util.Json

/-!
# Nodes of a JSON tree along a path

A path is a list of member names and array indices. `nodeAt` finds the node at
its end. `updateAt` is a chain of the non-const `operator[]` of the library along
member names: a null on the way becomes an object, a missing member is created,
and anything else throws.

* `nodeAt_updateAt_self`, `nodeAt_updateAt_of_unrelated`,
  `nodeAt_updateAt_prefix`: the nodes after an update, at its end, beside it and
  above it.
-/

namespace DeviceClient

/-- A step of a path. `malformed` stands for an index without its bracket; it leads
nowhere. -/
inductive PathToken where
  | name (key : String)
  | index (n : ℕ)
  | malformed
deriving DecidableEq, Repr

namespace JsonValue

/-- The members that `operator[]` works on; `none` is its exception. -/
def objectMembers : JsonValue → Option (List (String × JsonValue))
  | .null => some []
  | .object members => some members
  | _ => none

/-- `(*this)[key]`, changed by `f`. -/
def withMember (key : String) (f : JsonValue → Option JsonValue) (value : JsonValue) :
    Option JsonValue :=
  match value.objectMembers with
  | none => none
  | some members =>
    (f ((members.lookup key).getD .null)).map fun w => .object (Lib.setKey key w members)

/-- The node that a chain of `operator[]` reaches, changed by `f`. -/
def updateAt (f : JsonValue → Option JsonValue) : List String → JsonValue → Option JsonValue
  | [], value => f value
  | key :: keys, value => value.withMember key (updateAt f keys)

/-- `if (isMember(key)) removeMember(key)`. The overload of `removeMember` for strings
passes `c_str()` on, so a name ends at its first NUL there. -/
def removeIfMember (key : String) : JsonValue → Option JsonValue
  | .null => some .null
  | .object members =>
    if (members.lookup key).isSome then
      some (.object (Lib.eraseKey (String.ofList (key.toList.takeWhile (· ≠ '\x00'))) members))
    else some (.object members)
  | _ => none

/-- The node at the end of a path. -/
def nodeAt : JsonValue → List PathToken → Option JsonValue
  | value, [] => some value
  | .array values, .index n :: tokens =>
    match values[n]? with
    | none => none
    | some w => nodeAt w tokens
  | .object members, .name key :: tokens =>
    match members.lookup key with
    | none => none
    | some w => nodeAt w tokens
  | _, _ :: _ => none

/-- The member names of a path. -/
def names (keys : List String) : List PathToken := keys.map PathToken.name

@[simp] theorem names_nil : names [] = [] := rfl

@[simp] theorem names_cons (key : String) (keys : List String) :
    names (key :: keys) = .name key :: names keys := rfl

@[simp] theorem nodeAt_nil (value : JsonValue) : value.nodeAt [] = some value := by
  cases value <;> rfl

theorem nodeAt_object_name (members : List (String × JsonValue)) (key : String)
    (tokens : List PathToken) :
    (JsonValue.object members).nodeAt (.name key :: tokens) =
      (members.lookup key).bind fun w => w.nodeAt tokens := by
  rw [nodeAt]
  cases members.lookup key <;> rfl

theorem nodeAt_array_index (values : List JsonValue) (n : ℕ) (tokens : List PathToken) :
    (JsonValue.array values).nodeAt (.index n :: tokens) =
      values[n]?.bind fun w => w.nodeAt tokens := by
  rw [nodeAt]
  cases values[n]? <;> rfl

@[simp] theorem nodeAt_null_cons (t : PathToken) (tokens : List PathToken) :
    JsonValue.null.nodeAt (t :: tokens) = none := by
  cases t <;> rfl

/-- A missing node counts as null, which has no nodes but itself. -/
theorem getD_nodeAt_getD (o : Option JsonValue) (tokens : List PathToken) :
    ((o.getD .null).nodeAt tokens).getD .null = (o.bind fun w => w.nodeAt tokens).getD .null := by
  cases o with
  | none =>
    cases tokens with
    | nil => rfl
    | cons t tokens =>
      rw [Option.getD_none, nodeAt_null_cons]
      rfl
  | some w => rfl

/-- Below a value with members the names lead on, and nothing else does. -/
theorem nodeAt_name_of_members {value : JsonValue} {members : List (String × JsonValue)}
    (h : value.objectMembers = some members) (key : String) (tokens : List PathToken) :
    value.nodeAt (.name key :: tokens) = (members.lookup key).bind fun w => w.nodeAt tokens := by
  cases value with
  | null =>
    cases h
    rfl
  | object members' =>
    cases h
    exact nodeAt_object_name members key tokens
  | _ => cases h

theorem nodeAt_of_members {value : JsonValue} {members : List (String × JsonValue)}
    (h : value.objectMembers = some members) {t : PathToken} (ht : ∀ key, t ≠ .name key)
    (tokens : List PathToken) : value.nodeAt (t :: tokens) = none := by
  cases value with
  | null => exact nodeAt_null_cons t tokens
  | object members' =>
    cases t with
    | name key => exact absurd rfl (ht key)
    | index n => rfl
    | malformed => rfl
  | _ => cases h

theorem withMember_eq_some {key : String} {f : JsonValue → Option JsonValue}
    {value value' : JsonValue} (h : value.withMember key f = some value') :
    ∃ members w, value.objectMembers = some members ∧
      f ((members.lookup key).getD .null) = some w ∧
        value' = .object (Lib.setKey key w members) := by
  unfold withMember at h
  cases hmembers : value.objectMembers with
  | none =>
    rw [hmembers] at h
    cases h
  | some members =>
    rw [hmembers] at h
    obtain ⟨w, hw, rfl⟩ := Option.map_eq_some_iff.1 h
    exact ⟨members, w, rfl, hw, rfl⟩

theorem nodeAt_setKey_self (key : String) (w : JsonValue) (members : List (String × JsonValue))
    (tokens : List PathToken) :
    (JsonValue.object (Lib.setKey key w members)).nodeAt (.name key :: tokens) =
      w.nodeAt tokens := by
  rw [nodeAt_object_name, Lib.lookup_setKey, if_pos rfl]
  rfl

theorem nodeAt_setKey_of_ne {key k : String} (hk : k ≠ key) (w : JsonValue)
    (members : List (String × JsonValue)) (tokens : List PathToken) :
    (JsonValue.object (Lib.setKey key w members)).nodeAt (.name k :: tokens) =
      (JsonValue.object members).nodeAt (.name k :: tokens) := by
  rw [nodeAt_object_name, nodeAt_object_name, Lib.lookup_setKey, if_neg hk]

/-! ## Nodes after an update -/

/-- At its end an update leaves what `f` makes of the node, or of null where there is
none. -/
theorem nodeAt_updateAt_self {f : JsonValue → Option JsonValue} {keys : List String}
    {value value' : JsonValue} (h : updateAt f keys value = some value') :
    ∃ w, f ((value.nodeAt (names keys)).getD .null) = some w ∧
      ∀ tokens, value'.nodeAt (names keys ++ tokens) = w.nodeAt tokens := by
  induction keys generalizing value value' with
  | nil =>
    refine ⟨value', ?_, fun tokens => rfl⟩
    rw [names_nil, nodeAt_nil]
    exact h
  | cons key keys ih =>
    obtain ⟨members, w, hmembers, hw, rfl⟩ := withMember_eq_some h
    obtain ⟨u, hu, hnode⟩ := ih hw
    refine ⟨u, ?_, fun tokens => ?_⟩
    · -- a missing member is created as null
      rw [← hu, names_cons, nodeAt_name_of_members hmembers, ← getD_nodeAt_getD]
    · rw [names_cons, List.cons_append, nodeAt_setKey_self, hnode]

/-- Paths that neither lead to the end of an update nor through it keep their nodes. -/
theorem nodeAt_updateAt_of_unrelated {f : JsonValue → Option JsonValue} {keys : List String}
    {value value' : JsonValue} (h : updateAt f keys value = some value')
    {tokens : List PathToken} (hkeys : ¬ names keys <+: tokens) (htokens : ¬ tokens <+: names keys) :
    value'.nodeAt tokens = value.nodeAt tokens := by
  induction keys generalizing value value' tokens with
  | nil => exact absurd (List.nil_prefix) hkeys
  | cons key keys ih =>
    obtain ⟨members, w, hmembers, hw, rfl⟩ := withMember_eq_some h
    cases tokens with
    | nil => exact absurd (List.nil_prefix) htokens
    | cons t tokens =>
      by_cases ht : t = .name key
      · subst ht
        rw [names_cons, List.cons_prefix_cons] at hkeys htokens
        have hkeys' : ¬ names keys <+: tokens := fun hp => hkeys ⟨rfl, hp⟩
        have htokens' : ¬ tokens <+: names keys := fun hp => htokens ⟨rfl, hp⟩
        rw [nodeAt_setKey_self, ih hw hkeys' htokens', nodeAt_name_of_members hmembers]
        cases members.lookup key with
        | none =>
          cases tokens with
          | nil => exact absurd (List.nil_prefix) htokens'
          | cons t' tokens' => exact nodeAt_null_cons t' tokens'
        | some m => rfl
      · cases t with
        | name k =>
          have hk : k ≠ key := fun hk => ht (congrArg _ hk)
          rw [nodeAt_setKey_of_ne hk, nodeAt_name_of_members hmembers, nodeAt_object_name]
        | index n => exact (nodeAt_of_members hmembers (by simp) tokens).symm
        | malformed => exact (nodeAt_of_members hmembers (by simp) tokens).symm

/-- Above the end of an update there are objects. -/
theorem nodeAt_updateAt_prefix {f : JsonValue → Option JsonValue} {keys : List String}
    {value value' : JsonValue} (h : updateAt f keys value = some value')
    {tokens : List PathToken} (htokens : tokens <+: names keys) (hne : tokens ≠ names keys) :
    ∃ members, value'.nodeAt tokens = some (.object members) := by
  induction keys generalizing value value' tokens with
  | nil => exact absurd (List.prefix_nil.1 htokens) hne
  | cons key keys ih =>
    obtain ⟨members, w, hmembers, hw, rfl⟩ := withMember_eq_some h
    cases tokens with
    | nil => exact ⟨_, nodeAt_nil _⟩
    | cons t tokens =>
      rw [names_cons, List.cons_prefix_cons] at htokens
      obtain ⟨rfl, htokens⟩ := htokens
      have hne' : tokens ≠ names keys := fun heq => hne (by rw [heq, names_cons])
      obtain ⟨ms, hms⟩ := ih hw htokens hne'
      exact ⟨ms, by rw [nodeAt_setKey_self, hms]⟩

end JsonValue

end DeviceClient
