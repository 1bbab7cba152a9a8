import DeviceClient.Config.ConfigPath

/-!
# The configuration tree

`CIgniteConfig` holds the configuration as one JSON value. `GetJsonValue` looks a
parameter up, `CopyDBConfig` applies a map of updates: a value is stored at its
path, a null removes the parameter.

The lookup goes through the non-const `operator[]`, so it leaves null members
behind where it finds nothing; it is modelled with the tree afterwards.

* `putLaws_iff`: where an update with a value is a write of exactly its path.
* `lensLaws_iff`: where updates of a path, removals included, change that path and
  no other.
-/

namespace DeviceClient

open JsonValue

namespace IgniteConfig

/-! ## Lookup -/

/-- The walk of `GetJsonValue`, and the tree it leaves. -/
def lookupPath : List PathToken → JsonValue → JsonValue × JsonValue
  | [], value => (value, value)
  | .index n :: tokens, .array values =>
    match values[n]? with
    | none => (.null, .array values)
    | some w =>
      let r := lookupPath tokens w
      (r.1, .array (values.set n r.2))
  | .name key :: tokens, .object members =>
    -- a member that does not exist is created as null
    let r := lookupPath tokens ((members.lookup key).getD .null)
    (r.1, .object (Lib.setKey key r.2 members))
  | _ :: _, value => (.null, value)

def getJsonValue (m_jsonRoot : JsonValue) (rstrKey : String) (nIndex : ℤ) :
    JsonValue × JsonValue :=
  lookupPath (pathTokens nIndex rstrKey.toList) m_jsonRoot

/-- A lookup returns the node of its path, or null. -/
theorem lookupPath_fst (tokens : List PathToken) (value : JsonValue) :
    (lookupPath tokens value).1 = (value.nodeAt tokens).getD .null := by
  induction tokens generalizing value with
  | nil =>
    rw [nodeAt_nil]
    cases value <;> rfl
  | cons t tokens ih =>
    cases value with
    | array values =>
      cases t with
      | index n =>
        rw [nodeAt_array_index, lookupPath]
        cases values[n]? with
        | none => rfl
        | some w => exact ih w
      | name key => rfl
      | malformed => rfl
    | object members =>
      cases t with
      | index n => rfl
      | name key =>
        rw [nodeAt_object_name, lookupPath]
        dsimp only
        rw [ih, getD_nodeAt_getD]
      | malformed => rfl
    | _ => cases t <;> rfl

/-! ## Update -/

/-- `ProcessDBConfigFile`: whether there were keys, and the tree; `none` is an exception
of the JSON library. -/
def processDBConfigFile (rlistPathKeys : List String) (rjsonValue m_jsonRoot : JsonValue) :
    Option (Bool × JsonValue) :=
  let bUpdatesAvailable := !rlistPathKeys.isEmpty
  if rjsonValue ≠ .null then
    (updateAt (fun _ => some rjsonValue) rlistPathKeys m_jsonRoot).map
      fun root => (bUpdatesAvailable, root)
  else
    -- the walk ends at the parent; the last key is the one to remove
    (updateAt (removeIfMember (rlistPathKeys.getLastD "")) rlistPathKeys.dropLast m_jsonRoot).map
      fun root => (bUpdatesAvailable, root)

/-- `CopyDBConfig`, with the pairs in the order of the map. -/
def copyDBConfig (rmapConfigUpdateMap : List (String × JsonValue)) (m_jsonRoot : JsonValue) :
    Option (Bool × JsonValue) :=
  rmapConfigUpdateMap.foldlM
    (fun s pair => processDBConfigFile (split '.' pair.1.toList) pair.2 s.2) (false, m_jsonRoot)

theorem copyDBConfig_singleton (strPath : String) (value root : JsonValue) :
    copyDBConfig [(strPath, value)] root =
      processDBConfigFile (split '.' strPath.toList) value root := by
  unfold copyDBConfig
  simp only [List.foldlM_cons, List.foldlM_nil, bind_pure]

/-! ## Laws -/

/-- The node that a parameter names. -/
def node (root : JsonValue) (strPath : String) (nIndex : ℤ) : Option JsonValue :=
  root.nodeAt (pathTokens nIndex strPath.toList)

/-- Neither path is a prefix of the other. -/
def Unrelated (nIndex : ℤ) (p q : String) : Prop :=
  ¬ pathTokens nIndex p.toList <+: pathTokens nIndex q.toList ∧
    ¬ pathTokens nIndex q.toList <+: pathTokens nIndex p.toList

/-- `q` is a proper prefix of `p`. -/
def Above (nIndex : ℤ) (q p : String) : Prop :=
  pathTokens nIndex q.toList <+: pathTokens nIndex p.toList ∧
    pathTokens nIndex q.toList ≠ pathTokens nIndex p.toList

/-- A node above a removal: as it was, or an object that is still one. -/
def Kept (before after : Option JsonValue) : Prop :=
  after = before ∨
    ∃ members members', before = some (.object members) ∧ after = some (.object members')

/-- Every value put at the path is found there, and unrelated lookups return what they
did. -/
def PutLaws (root : JsonValue) (p : String) : Prop :=
  ∀ value, value ≠ .null → ∃ b root', copyDBConfig [(p, value)] root = some (b, root') ∧
    (∀ nIndex, (getJsonValue root' p nIndex).1 = value) ∧
      ∀ q nIndex, Unrelated nIndex p q →
        (getJsonValue root' q nIndex).1 = (getJsonValue root q nIndex).1

/-- A null makes the path absent and changes no other: unrelated nodes stay, and nothing
is created on the way. -/
def RemoveLaws (root : JsonValue) (p : String) : Prop :=
  ∃ b root', copyDBConfig [(p, .null)] root = some (b, root') ∧
    ∀ nIndex, node root' p nIndex = none ∧
      (∀ q, Unrelated nIndex p q → node root' q nIndex = node root q nIndex) ∧
        ∀ q, Above nIndex q p → Kept (node root q nIndex) (node root' q nIndex)

def LensLaws (root : JsonValue) (p : String) : Prop := PutLaws root p ∧ RemoveLaws root p

/-! ## Conditions on the tree -/

/-- Above the end of the path there are objects, or nothing. -/
def Walkable : List String → JsonValue → Prop
  | [], _ => True
  | key :: keys, value =>
    match value.objectMembers with
    | none => False
    | some members => Walkable keys ((members.lookup key).getD .null)

/-- The parent exists below objects only and is an object or null. The name to remove has
no NUL in it, or the parent has no such member. -/
def Removable : List String → JsonValue → Prop
  | [], _ => False
  | [key], value =>
    match value.objectMembers with
    | none => False
    | some members => '\x00' ∉ key.toList ∨ members.lookup key = none
  | key :: key' :: keys, .object members =>
    match members.lookup key with
    | none => False
    | some w => Removable (key' :: keys) w
  | _ :: _ :: _, _ => False

/-! ## Updates with a value -/

theorem getJsonValue_fst (root : JsonValue) (q : String) (nIndex : ℤ) :
    (getJsonValue root q nIndex).1 = (node root q nIndex).getD .null :=
  lookupPath_fst _ root

theorem exists_updateAt_iff (value : JsonValue) (keys : List String) (root : JsonValue) :
    (∃ root', updateAt (fun _ => some value) keys root = some root') ↔ Walkable keys root := by
  induction keys generalizing root with
  | nil => exact ⟨fun _ => trivial, fun _ => ⟨value, rfl⟩⟩
  | cons key keys ih =>
    unfold updateAt withMember Walkable
    cases root.objectMembers with
    | none => simp
    | some members =>
      dsimp only
      rw [← ih]
      simp only [Option.map_eq_some_iff]
      constructor
      · rintro ⟨_, w, hw, _⟩
        exact ⟨w, hw⟩
      · rintro ⟨w, hw⟩
        exact ⟨_, w, hw, rfl⟩

theorem copyDBConfig_value {value : JsonValue} (hvalue : value ≠ .null) (p : String)
    (root : JsonValue) :
    copyDBConfig [(p, value)] root =
      (updateAt (fun _ => some value) (split '.' p.toList) root).map
        fun root => (!(split '.' p.toList).isEmpty, root) := by
  rw [copyDBConfig_singleton]
  unfold processDBConfigFile
  exact if_pos hvalue

theorem copyDBConfig_null (p : String) (root : JsonValue) :
    copyDBConfig [(p, .null)] root =
      (updateAt (removeIfMember ((split '.' p.toList).getLastD "")) (split '.' p.toList).dropLast
        root).map fun root => (!(split '.' p.toList).isEmpty, root) := by
  rw [copyDBConfig_singleton]
  unfold processDBConfigFile
  exact if_neg (by simp)

/-- There is a scalar other than a given value. -/
theorem exists_boolean_ne (value : JsonValue) : ∃ b, JsonValue.boolean b ≠ value := by
  by_cases h : value = .boolean true
  · exact ⟨false, by simp [h]⟩
  · exact ⟨true, fun heq => h heq.symm⟩

/-- A value is found where it was put iff the lookup takes the path as the update does. -/
theorem plain_of_putLaws {root : JsonValue} {p : String} (h : PutLaws root p) : PlainPath p := by
  obtain ⟨b, hb⟩ := exists_boolean_ne ((node root p 0).getD .null)
  obtain ⟨_, root', hcopy, hget, _⟩ := h (.boolean b) (by simp)
  rw [copyDBConfig_value (by simp), Option.map_eq_some_iff] at hcopy
  obtain ⟨root'', hupdate, heq⟩ := hcopy
  cases heq
  have hfound := hget 0
  rw [getJsonValue_fst] at hfound
  obtain ⟨w, hw, hnode⟩ := nodeAt_updateAt_self hupdate
  cases hw
  suffices heq : pathTokens 0 p.toList = names (split '.' p.toList) from
    plain_of_pathTokens_eq heq
  by_contra hne
  -- elsewhere the lookup finds what was there, a part of the scalar, or an object
  by_cases hkeys : names (split '.' p.toList) <+: pathTokens 0 p.toList
  · obtain ⟨tokens, htokens⟩ := hkeys
    cases tokens with
    | nil =>
      rw [List.append_nil] at htokens
      exact hne htokens.symm
    | cons t tokens =>
      unfold node at hfound
      rw [← htokens, hnode] at hfound
      cases t <;> cases hfound
  · by_cases htokens : pathTokens 0 p.toList <+: names (split '.' p.toList)
    · obtain ⟨members, hmembers⟩ := nodeAt_updateAt_prefix hupdate htokens hne
      unfold node at hfound
      rw [hmembers] at hfound
      cases hfound
    · unfold node at hfound hb
      rw [nodeAt_updateAt_of_unrelated hupdate hkeys htokens] at hfound
      exact hb hfound.symm

/-- An update with a value writes exactly its path iff the path is plain and nothing but
objects stands above its end. -/
theorem putLaws_iff (root : JsonValue) (p : String) :
    PutLaws root p ↔ PlainPath p ∧ Walkable (split '.' p.toList) root := by
  constructor
  · intro h
    refine ⟨plain_of_putLaws h, ?_⟩
    obtain ⟨_, root', hcopy, _⟩ := h (.boolean true) (by simp)
    rw [copyDBConfig_value (by simp), Option.map_eq_some_iff] at hcopy
    obtain ⟨root'', hupdate, _⟩ := hcopy
    exact (exists_updateAt_iff _ _ _).1 ⟨root'', hupdate⟩
  · rintro ⟨hplain, hwalk⟩ value hvalue
    obtain ⟨root', hupdate⟩ := (exists_updateAt_iff value _ _).2 hwalk
    have htokens : ∀ nIndex, pathTokens nIndex p.toList = names (split '.' p.toList) :=
      fun nIndex => pathTokens_of_plain nIndex _ hplain
    refine ⟨!(split '.' p.toList).isEmpty, root', ?_, fun nIndex => ?_, fun q nIndex hq => ?_⟩
    · rw [copyDBConfig_value hvalue, hupdate]
      rfl
    · obtain ⟨w, hw, hnode⟩ := nodeAt_updateAt_self hupdate
      cases hw
      have hself := hnode []
      rw [List.append_nil, nodeAt_nil] at hself
      rw [getJsonValue_fst]
      unfold node
      rw [htokens, hself]
      rfl
    · unfold Unrelated at hq
      rw [htokens] at hq
      rw [getJsonValue_fst, getJsonValue_fst]
      unfold node
      rw [nodeAt_updateAt_of_unrelated hupdate hq.1 hq.2]

/-! ## Removals -/

/-- The tree that a null at the keys leaves. -/
def removeAt (keys : List String) (root : JsonValue) : Option JsonValue :=
  updateAt (removeIfMember (keys.getLastD "")) keys.dropLast root

theorem removeAt_cons_cons (key key' : String) (keys : List String) (root : JsonValue) :
    removeAt (key :: key' :: keys) root = root.withMember key (removeAt (key' :: keys)) := rfl

theorem removable_cons_cons {key key' : String} {keys : List String} {value : JsonValue} :
    Removable (key :: key' :: keys) value ↔
      ∃ members w, value = .object members ∧ members.lookup key = some w ∧
        Removable (key' :: keys) w := by
  constructor
  · intro h
    cases value with
    | object members =>
      unfold Removable at h
      cases hlookup : members.lookup key with
      | none =>
        rw [hlookup] at h
        cases h
      | some w =>
        rw [hlookup] at h
        exact ⟨members, w, rfl, hlookup, h⟩
    | _ => cases h
  · rintro ⟨members, w, rfl, hlookup, hw⟩
    unfold Removable
    rw [hlookup]
    exact hw

theorem takeWhile_of_no_nul {key : String} (h : '\x00' ∉ key.toList) :
    String.ofList (key.toList.takeWhile (· ≠ '\x00')) = key := by
  have hall : ∀ c ∈ key.toList, decide (c ≠ '\x00') = true := by
    intro c hc
    have hne : c ≠ '\x00' := fun heq => h (heq ▸ hc)
    simpa using hne
  rw [List.takeWhile_eq_self_iff.2 hall, String.ofList_toList]

theorem removeIfMember_object (key : String) (members : List (String × JsonValue)) :
    removeIfMember key (.object members) =
      if (members.lookup key).isSome then
        some (.object (Lib.eraseKey (String.ofList (key.toList.takeWhile (· ≠ '\x00'))) members))
      else some (.object members) := rfl

/-- What a removal does to the nodes: the one at the end of the keys goes, those beside
the way there stay, and those above are kept. -/
structure RemovesAt (keys : List String) (root root' : JsonValue) : Prop where
  absent : root'.nodeAt (names keys) = none
  others : ∀ tokens, ¬ names keys <+: tokens → ¬ tokens <+: names keys →
    root'.nodeAt tokens = root.nodeAt tokens
  above : ∀ tokens, tokens <+: names keys → tokens ≠ names keys →
    Kept (root.nodeAt tokens) (root'.nodeAt tokens)

theorem RemovesAt.of_last {key : String} {value value' : JsonValue}
    (habsent : value'.nodeAt [.name key] = none)
    (hothers : ∀ t tokens, t ≠ .name key → value'.nodeAt (t :: tokens) = value.nodeAt (t :: tokens))
    (hkept : Kept (some value) (some value')) : RemovesAt [key] value value' where
  absent := habsent
  others tokens hkeys htokens := by
    cases tokens with
    | nil => exact absurd List.nil_prefix htokens
    | cons t tokens =>
      refine hothers t tokens fun ht => hkeys ?_
      rw [ht]
      exact List.cons_prefix_cons.2 ⟨rfl, List.nil_prefix⟩
  above tokens hpre hne := by
    -- the only node above is the root
    rcases List.prefix_cons_iff.1 hpre with rfl | ⟨t, rfl, ht⟩
    · rw [nodeAt_nil, nodeAt_nil]
      exact hkept
    · exact absurd (by rw [List.prefix_nil.1 ht]; rfl) hne

theorem RemovesAt.cons {key : String} {keys : List String} {members : List (String × JsonValue)}
    {w w' : JsonValue} (hlookup : members.lookup key = some w) (h : RemovesAt keys w w') :
    RemovesAt (key :: keys) (.object members) (.object (Lib.setKey key w' members)) where
  absent := by rw [names_cons, nodeAt_setKey_self, h.absent]
  others tokens hkeys htokens := by
    cases tokens with
    | nil => exact absurd List.nil_prefix htokens
    | cons t tokens =>
      by_cases ht : t = .name key
      · subst ht
        rw [names_cons, List.cons_prefix_cons] at hkeys htokens
        rw [nodeAt_setKey_self, nodeAt_object_name, hlookup]
        exact h.others tokens (fun hp => hkeys ⟨rfl, hp⟩) fun hp => htokens ⟨rfl, hp⟩
      · cases t with
        | name k => exact nodeAt_setKey_of_ne (fun hk => ht (congrArg _ hk)) _ _ _
        | index n => rfl
        | malformed => rfl
  above tokens hpre hne := by
    rcases List.prefix_cons_iff.1 hpre with rfl | ⟨t, rfl, ht⟩
    · rw [nodeAt_nil, nodeAt_nil]
      exact Or.inr ⟨_, _, rfl, rfl⟩
    · rw [nodeAt_setKey_self, nodeAt_object_name, hlookup]
      exact h.above t ht fun heq => hne (by rw [heq]; rfl)

/-- The last name goes, the other nodes of its parent stay. -/
theorem removesAt_removeIfMember {key : String} {value : JsonValue} (h : Removable [key] value) :
    ∃ value', removeIfMember key value = some value' ∧ RemovesAt [key] value value' := by
  cases value with
  | null => exact ⟨.null, rfl, RemovesAt.of_last rfl (fun _ _ _ => rfl) (Or.inl rfl)⟩
  | object members =>
    have hkey : '\x00' ∉ key.toList ∨ members.lookup key = none := h
    rw [removeIfMember_object]
    cases hlookup : members.lookup key with
    | none =>
      refine ⟨.object members, rfl, RemovesAt.of_last ?_ (fun _ _ _ => rfl) (Or.inl rfl)⟩
      rw [nodeAt_object_name, hlookup]
      rfl
    | some w =>
      have hnul := hkey.resolve_right (by simp [hlookup])
      rw [if_pos (show (some w).isSome = true from rfl), takeWhile_of_no_nul hnul]
      refine ⟨_, rfl, RemovesAt.of_last ?_ ?_ (Or.inr ⟨_, _, rfl, rfl⟩)⟩
      · rw [nodeAt_object_name, Lib.lookup_eraseKey, if_pos rfl]
        rfl
      · intro t tokens ht
        cases t with
        | name k =>
          have hk : k ≠ key := fun hk => ht (congrArg _ hk)
          rw [nodeAt_object_name, nodeAt_object_name, Lib.lookup_eraseKey, if_neg hk]
        | index n => rfl
        | malformed => rfl
  | _ => cases h

/-- A removal whose parent exists. -/
theorem removeAt_of_removable {keys : List String} {root : JsonValue} (h : Removable keys root) :
    ∃ root', removeAt keys root = some root' ∧ RemovesAt keys root root' := by
  induction keys generalizing root with
  | nil => cases h
  | cons key keys ih =>
    cases keys with
    | nil => exact removesAt_removeIfMember h
    | cons key' keys =>
      obtain ⟨members, w, rfl, hlookup, hw⟩ := removable_cons_cons.1 h
      obtain ⟨w', hremove, hremoves⟩ := ih hw
      refine ⟨.object (Lib.setKey key w' members), ?_, hremoves.cons hlookup⟩
      rw [removeAt_cons_cons]
      unfold withMember objectMembers
      dsimp only
      rw [hlookup, Option.getD_some, hremove]
      rfl

theorem Kept.object {value : JsonValue} {members' : List (String × JsonValue)}
    (h : Kept (some value) (some (.object members'))) : ∃ members, value = .object members := by
  rcases h with heq | ⟨members, _, heq, _⟩
  · exact ⟨members', (Option.some.inj heq).symm⟩
  · exact ⟨members, Option.some.inj heq⟩

/-- A name that is gone had no NUL in it, or was not there. -/
theorem removable_of_removeIfMember {key : String} {value value' : JsonValue}
    (hremove : removeIfMember key value = some value')
    (habsent : value'.nodeAt [.name key] = none) : Removable [key] value := by
  cases value with
  | null => exact Or.inr rfl
  | object members =>
    show '\x00' ∉ key.toList ∨ members.lookup key = none
    by_contra hnot
    rw [not_or, not_not] at hnot
    rw [removeIfMember_object, if_pos (Option.isSome_iff_ne_none.2 hnot.2)] at hremove
    cases hremove
    have hother : key ≠ String.ofList (key.toList.takeWhile (· ≠ '\x00')) := by
      -- a name with a NUL is not the one that is erased
      intro heq
      have hmem : '\x00' ∈ key.toList.takeWhile (· ≠ '\x00') := by
        have hlist := congrArg String.toList heq
        rw [String.toList_ofList] at hlist
        rw [← hlist]
        exact hnot.1
      simpa using List.mem_takeWhile_imp hmem
    obtain ⟨w, hlookup⟩ := Option.ne_none_iff_exists'.1 hnot.2
    rw [nodeAt_object_name, Lib.lookup_eraseKey, if_neg hother, hlookup] at habsent
    cases habsent
  | _ => cases hremove

/-- A removal after which the path is absent and no node above it is new: its parent
existed. -/
theorem removable_of_removeAt {keys : List String} {root root' : JsonValue}
    (hremove : removeAt keys root = some root') (habsent : root'.nodeAt (names keys) = none)
    (hkept : ∀ tokens, tokens <+: names keys → tokens ≠ names keys →
      Kept (root.nodeAt tokens) (root'.nodeAt tokens)) : Removable keys root := by
  induction keys generalizing root root' with
  | nil =>
    rw [names_nil, nodeAt_nil] at habsent
    cases habsent
  | cons key keys ih =>
    cases keys with
    | nil => exact removable_of_removeIfMember hremove habsent
    | cons key' keys =>
      rw [removeAt_cons_cons] at hremove
      obtain ⟨members, w', hmembers, hw', rfl⟩ := withMember_eq_some hremove
      -- the root was an object, and it had the first member
      have hroot := hkept [] List.nil_prefix (by simp)
      rw [nodeAt_nil, nodeAt_nil] at hroot
      obtain ⟨members, rfl⟩ := hroot.object
      cases hmembers
      have hfirst := hkept [.name key] (List.cons_prefix_cons.2 ⟨rfl, List.nil_prefix⟩) (by simp)
      rw [nodeAt_setKey_self, nodeAt_nil, nodeAt_object_name] at hfirst
      cases hlookup : members.lookup key with
      | none =>
        rw [hlookup] at hfirst
        rcases hfirst with heq | ⟨_, _, heq, _⟩
        · cases heq
        · cases heq
      | some w =>
        rw [hlookup, Option.getD_some] at hw'
        refine removable_cons_cons.2 ⟨members, w, rfl, hlookup, ih hw' ?_ ?_⟩
        · rw [names_cons, nodeAt_setKey_self] at habsent
          exact habsent
        · intro tokens hpre hne
          have hbelow := hkept (.name key :: tokens) (List.cons_prefix_cons.2 ⟨rfl, hpre⟩)
            fun heq => hne (List.cons_inj_right _ |>.1 heq)
          rw [nodeAt_setKey_self, nodeAt_object_name, hlookup] at hbelow
          exact hbelow

/-! ## Both laws -/

theorem walkable_of_removable {keys : List String} {root : JsonValue} (h : Removable keys root) :
    Walkable keys root := by
  induction keys generalizing root with
  | nil => trivial
  | cons key keys ih =>
    unfold Walkable
    cases keys with
    | nil =>
      unfold Removable at h
      cases hmembers : root.objectMembers with
      | none =>
        rw [hmembers] at h
        cases h
      | some members => trivial
    | cons key' keys =>
      obtain ⟨members, w, rfl, hlookup, hw⟩ := removable_cons_cons.1 h
      show Walkable (key' :: keys) ((members.lookup key).getD .null)
      rw [hlookup]
      exact ih hw

/-- The names above a plain path are the tokens of a text. -/
theorem exists_above {p : String} (hplain : PlainPath p) {tokens : List PathToken}
    (htokens : tokens <+: names (split '.' p.toList)) :
    ∃ q : String, ∀ nIndex, pathTokens nIndex q.toList = tokens := by
  obtain ⟨keys, hkeys, rfl⟩ := List.prefix_map_iff.1 htokens
  refine exists_path keys fun key hkey => ?_
  have hmem := hkeys.subset hkey
  exact ⟨hplain key hmem, delim_not_mem_split hmem⟩

/-- Updates of a path change it and no other iff its names are plain, its parent exists
below objects only and is an object or null, and the name to remove has no NUL in it or
is not there. -/
theorem lensLaws_iff (root : JsonValue) (p : String) :
    LensLaws root p ↔ PlainPath p ∧ Removable (split '.' p.toList) root := by
  constructor
  · rintro ⟨hput, hremove⟩
    -- writing alone tells that the path is plain
    have hplain := plain_of_putLaws hput
    have htokens : ∀ nIndex, pathTokens nIndex p.toList = names (split '.' p.toList) :=
      fun nIndex => pathTokens_of_plain nIndex _ hplain
    obtain ⟨_, root', hcopy, hlaws⟩ := hremove
    rw [copyDBConfig_null, Option.map_eq_some_iff] at hcopy
    obtain ⟨root'', hupdate, heq⟩ := hcopy
    cases heq
    refine ⟨hplain, removable_of_removeAt hupdate ?_ fun tokens hpre hne => ?_⟩
    · rw [← htokens 0]
      exact (hlaws 0).1
    · obtain ⟨q, hq⟩ := exists_above hplain hpre
      have habove : Above 0 q p := by
        unfold Above
        rw [hq, htokens]
        exact ⟨hpre, hne⟩
      have hkept := (hlaws 0).2.2 q habove
      unfold node at hkept
      rw [hq] at hkept
      exact hkept
  · rintro ⟨hplain, hremovable⟩
    refine ⟨(putLaws_iff root p).2 ⟨hplain, walkable_of_removable hremovable⟩, ?_⟩
    have htokens : ∀ nIndex, pathTokens nIndex p.toList = names (split '.' p.toList) :=
      fun nIndex => pathTokens_of_plain nIndex _ hplain
    obtain ⟨root', hremove, hremoves⟩ := removeAt_of_removable hremovable
    refine ⟨!(split '.' p.toList).isEmpty, root', ?_, fun nIndex => ⟨?_, fun q hq => ?_,
      fun q hq => ?_⟩⟩
    · rw [copyDBConfig_null]
      unfold removeAt at hremove
      rw [hremove]
      rfl
    · unfold node
      rw [htokens]
      exact hremoves.absent
    · unfold Unrelated at hq
      rw [htokens] at hq
      exact hremoves.others _ hq.1 hq.2
    · unfold Above at hq
      rw [htokens] at hq
      exact hremoves.above _ hq.1 hq.2

/-- A null for a parameter that does not exist creates what stands above it. -/
theorem not_lensLaws_missingParent : ¬ LensLaws (.object []) "a.b.c" := by
  have hsplit : split '.' "a.b.c".toList = ["a", "b", "c"] := by simp [split]
  have hplain : ∀ key ∈ split '.' "a.b.c".toList, PlainKey key := by
    rw [hsplit]
    decide
  have hcopy : copyDBConfig [("a.b.c", .null)] (.object []) =
      some (true, .object [("a", .object [("b", .null)])]) := by
    rw [copyDBConfig_null, hsplit]
    decide
  rintro ⟨_, _, root', hcopy', hlaws⟩
  rw [hcopy] at hcopy'
  cases hcopy'
  -- the parent's parent is a new object
  obtain ⟨q, hq⟩ := exists_path ["a"] (by decide)
  have hp : pathTokens 0 "a.b.c".toList = names ["a", "b", "c"] := by
    rw [pathTokens_of_plain 0 _ hplain, hsplit]
  have hkept := (hlaws 0).2.2 q (by
    unfold Above
    rw [hq, hp]
    decide)
  unfold node at hkept
  rw [hq] at hkept
  rcases hkept with h | ⟨_, _, h, _⟩
  · cases h
  · cases h

end IgniteConfig

end DeviceClient
