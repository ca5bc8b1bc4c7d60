import SpnegoRealm.Ldap.Filter
import SpnegoRealm.Proofs.Ldap.Reading
import SpnegoRealm.Proofs.Text.ByteOrder

/-! # What the filters of the client ask

An escaped text is a value that spells the bytes of the text (`SpnegoRealm.Ldap.value_escape`). So
the filters that the client builds can be read in one way only, whatever names they are built from
(`SpnegoRealm.Ldap.filters_ask_one_thing`).
-/

namespace SpnegoRealm.Ldap

/-! ## Escaped texts -/

/-- A reserved character is written with the digits of its byte. -/
theorem escapeChar_of_reserved {c : Char} (special : c ∈ reserved) : ∃ high low highValue lowValue,
    Filter.escapeChar c = ['\\', high, low] ∧
      Text.Numeral.digit? 16 high = some highValue ∧ Text.Numeral.digit? 16 low = some lowValue ∧
        String.utf8EncodeChar c = [UInt8.ofNat (highValue * 16 + lowValue)] := by
  simp only [reserved, List.mem_cons, List.not_mem_nil, or_false] at special
  rcases special with rfl | rfl | rfl | rfl | rfl
  · exact ⟨'0', '0', 0, 0, rfl, by decide, by decide, by decide⟩
  · exact ⟨'2', '8', 2, 8, rfl, by decide, by decide, by decide⟩
  · exact ⟨'2', '9', 2, 9, rfl, by decide, by decide, by decide⟩
  · exact ⟨'2', 'a', 2, 10, rfl, by decide, by decide, by decide⟩
  · exact ⟨'5', 'c', 5, 12, rfl, by decide, by decide, by decide⟩

private theorem escapeChar_of_unreserved {c : Char} (plain : c ∉ reserved) :
    Filter.escapeChar c = [c] := by
  simp only [reserved, List.mem_cons, List.not_mem_nil, or_false, not_or] at plain
  obtain ⟨noNul, noOpening, noClosing, noAsterisk, noBackslash⟩ := plain
  unfold Filter.escapeChar
  rw [if_neg noBackslash, if_neg noAsterisk, if_neg noOpening, if_neg noClosing, if_neg noNul]

private theorem value_flatMap_escapeChar (characters : List Char) :
    Value (characters.flatMap Filter.escapeChar) (characters.flatMap String.utf8EncodeChar) := by
  induction characters with
  | nil => exact .nil
  | cons c rest ih =>
      rw [List.flatMap_cons, List.flatMap_cons]
      by_cases special : c ∈ reserved
      · obtain ⟨high, low, _, _, escaped, highDigit, lowDigit, byte⟩ :=
          escapeChar_of_reserved special
        rw [escaped, byte]
        exact .escaped highDigit lowDigit ih
      · rw [escapeChar_of_unreserved special]
        exact .normal special ih

/-- **Escaping keeps every byte.** -/
theorem value_escape (text : String) : Value (Filter.escape text).toList (Text.utf8 text) := by
  unfold Filter.escape
  rw [String.toList_ofList, Text.utf8_eq_flatMap]
  exact value_flatMap_escapeChar text.toList

/-! ## The names in the filters -/

private theorem attributeDescription_of_letters {first : Char} {rest : List Char}
    (letter : first.isAlpha = true) (keys : rest.all isKeyChar = true) :
    AttributeDescription (first :: rest) := by
  have plain := AttributeDescription.optioned (.short letter keys) List.all_nil
  rwa [List.flatMap_nil, List.append_nil] at plain

private theorem described_objectClass : AttributeDescription "objectClass".toList :=
  attributeDescription_of_letters (by decide) (by decide)

private theorem described_sAMAccountName : AttributeDescription "sAMAccountName".toList :=
  attributeDescription_of_letters (by decide) (by decide)

private theorem described_memberOf : AttributeDescription "memberOf".toList :=
  attributeDescription_of_letters (by decide) (by decide)

private theorem identifies_chainRule : ObjectIdentifier Filter.chainRule.toList := by
  have numbers : ObjectIdentifier (['1'] ++ ["2".toList, "840".toList, "113556".toList, "1".toList,
      "4".toList, "1941".toList].flatMap ('.' :: ·)) :=
    .numeric (by decide) (by decide) (by decide)
  exact numbers

/-! ## The filters -/

variable {name rule : String}

/-- The filter that compares an attribute with a text, and what it asks. -/
def equality (name text : String) : List Char × Condition :=
  (wrap (name.toList ++ '=' :: (Filter.escape text).toList), .compares name .equal (Text.utf8 text))

/-- The filter that matches an attribute with a text by a rule, and what it asks. -/
def matching (name rule text : String) : List Char × Condition :=
  (wrap (name.toList ++ ':' :: (rule.toList ++ ':' :: '=' :: (Filter.escape text).toList)),
    .extensible (some name) false (some rule) (Text.utf8 text))

private theorem means_equality_text (described : AttributeDescription name.toList) (text : String) :
    Means (equality name text).1 (equality name text).2 :=
  means_equality described (value_escape text)

private theorem means_matching_text (described : AttributeDescription name.toList)
    (ruled : ObjectIdentifier rule.toList)
    (unmarked : rule.toList.head?.map Char.toLower ≠ some 'd') (text : String) :
    Means (matching name rule text).1 (matching name rule text).2 :=
  means_matching described ruled unmarked (value_escape text)

private theorem toList_userAccount (account : String) :
    (Filter.userAccount account).toList = wrap ('&' ::
      [equality "objectClass" "user", equality "sAMAccountName" account].flatMap Prod.fst) := by
  have plain : Filter.escape "user" = "user" := by decide
  unfold Filter.userAccount equality wrap
  rw [String.toList_append, String.toList_append, List.flatMap_cons, plain]
  generalize (Filter.escape account).toList = value
  simp

private theorem toList_memberGroups (group : String) :
    (Filter.memberGroups group).toList = wrap ('&' ::
      [equality "objectClass" "group", equality "memberOf" group].flatMap Prod.fst) := by
  have plain : Filter.escape "group" = "group" := by decide
  unfold Filter.memberGroups equality wrap
  rw [String.toList_append, String.toList_append, List.flatMap_cons, plain]
  generalize (Filter.escape group).toList = value
  simp

private theorem toList_transitiveMembership (group account : String) :
    (Filter.transitiveMembership group account).toList = wrap ('&' ::
      [equality "objectClass" "user", equality "sAMAccountName" account,
        matching "memberOf" Filter.chainRule group].flatMap Prod.fst) := by
  have plain : Filter.escape "user" = "user" := by decide
  unfold Filter.transitiveMembership equality matching wrap
  simp only [String.toList_append, List.flatMap_cons, plain]
  generalize (Filter.escape group).toList = value
  generalize (Filter.escape account).toList = other
  simp

/-- The filter for an account asks for users of that account name. -/
theorem means_userAccount (account : String) : Means (Filter.userAccount account).toList
    (.all [.compares "objectClass" .equal (Text.utf8 "user"),
      .compares "sAMAccountName" .equal (Text.utf8 account)]) := by
  rw [toList_userAccount]
  refine .all (List.cons_ne_nil _ _) ?_
  simp only [List.forall_mem_cons]
  exact ⟨means_equality_text described_objectClass _,
    means_equality_text described_sAMAccountName _, List.forall_mem_nil _⟩

/-- The filter for nested groups asks for groups that are members of the group. -/
theorem means_memberGroups (group : String) : Means (Filter.memberGroups group).toList
    (.all [.compares "objectClass" .equal (Text.utf8 "group"),
      .compares "memberOf" .equal (Text.utf8 group)]) := by
  rw [toList_memberGroups]
  refine .all (List.cons_ne_nil _ _) ?_
  simp only [List.forall_mem_cons]
  exact ⟨means_equality_text described_objectClass _, means_equality_text described_memberOf _,
    List.forall_mem_nil _⟩

/-- The filter for a membership asks for users of that account name who are members of the group by
the chain rule. -/
theorem means_transitiveMembership (group account : String) :
    Means (Filter.transitiveMembership group account).toList
      (.all [.compares "objectClass" .equal (Text.utf8 "user"),
        .compares "sAMAccountName" .equal (Text.utf8 account),
        .extensible (some "memberOf") false (some "1.2.840.113556.1.4.1941")
          (Text.utf8 group)]) := by
  rw [toList_transitiveMembership]
  refine .all (List.cons_ne_nil _ _) ?_
  simp only [List.forall_mem_cons]
  exact ⟨means_equality_text described_objectClass _,
    means_equality_text described_sAMAccountName _,
    means_matching_text described_memberOf identifies_chainRule (by decide) _,
    List.forall_mem_nil _⟩

/-- Texts with one reading are the same only if their readings are. -/
theorem Means.eq {text : List Char} {condition other : Condition} (means : Means text condition)
    (again : Means text other) : condition = other :=
  (again condition).mp means.reads

/-- **Filters ask one thing.** Every filter that the client builds can be read, and only as the
conjunction that it was built for: the class of the object and the names that were asked for, byte
for byte, with no condition more. So different names never come to the same filter. -/
theorem filters_ask_one_thing :
    (∀ account, Means (Filter.userAccount account).toList
      (.all [.compares "objectClass" .equal (Text.utf8 "user"),
        .compares "sAMAccountName" .equal (Text.utf8 account)])) ∧
    (∀ group, Means (Filter.memberGroups group).toList
      (.all [.compares "objectClass" .equal (Text.utf8 "group"),
        .compares "memberOf" .equal (Text.utf8 group)])) ∧
    (∀ group account, Means (Filter.transitiveMembership group account).toList
      (.all [.compares "objectClass" .equal (Text.utf8 "user"),
        .compares "sAMAccountName" .equal (Text.utf8 account),
        .extensible (some "memberOf") false (some "1.2.840.113556.1.4.1941")
          (Text.utf8 group)])) ∧
    Function.Injective Filter.userAccount ∧ Function.Injective Filter.memberGroups ∧
      Function.Injective2 Filter.transitiveMembership := by
  refine ⟨means_userAccount, means_memberGroups, means_transitiveMembership, ?accounts, ?groups,
    ?memberships⟩
  case accounts =>
    intro account other same
    have conditions := (same ▸ means_userAccount account).eq (means_userAccount other)
    simp only [Condition.all.injEq, List.cons.injEq, Condition.compares.injEq, true_and,
      and_true] at conditions
    exact Text.utf8_injective conditions
  case groups =>
    intro group other same
    have conditions := (same ▸ means_memberGroups group).eq (means_memberGroups other)
    simp only [Condition.all.injEq, List.cons.injEq, Condition.compares.injEq, true_and,
      and_true] at conditions
    exact Text.utf8_injective conditions
  case memberships =>
    intro group other account user same
    have conditions := (same ▸ means_transitiveMembership group account).eq
      (means_transitiveMembership other user)
    simp only [Condition.all.injEq, List.cons.injEq, Condition.compares.injEq,
      Condition.extensible.injEq, true_and, and_true] at conditions
    exact ⟨Text.utf8_injective conditions.2, Text.utf8_injective conditions.1⟩

example : Filter.userAccount "a*)(objectClass=*" =
    "(&(objectClass=user)(sAMAccountName=a\\2a\\29\\28objectClass=\\2a))" := by
  decide +kernel

end SpnegoRealm.Ldap
