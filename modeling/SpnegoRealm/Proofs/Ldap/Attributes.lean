import Mathlib.Data.List.Sort
import SpnegoRealm.Proofs.Ldap.Connection
import SpnegoRealm.Proofs.Text.Casing
import SpnegoRealm.Proofs.Text.Utf8

/-! # What is read of an entry

An entry holds values under the names of its attributes, in any case of their ASCII letters
(`SpnegoRealm.Ldap.RawEntry.valuesOf`). Where no two names are alike, the texts that are read under
a name are all of these values, if these are UTF-8
(`SpnegoRealm.Ldap.RawEntry.textValues_eq_of_texts`), and a single value is read byte for byte
whether it is UTF-8 or not (`SpnegoRealm.Ldap.RawEntry.firstBytes?_eq`). The groups of an account
are its lowercased texts, each at its first occurrence (`SpnegoRealm.Ldap.FirstOccurrences`).
**Attributes lose nothing** is `SpnegoRealm.Ldap.attributes_lose_nothing`.
-/

namespace SpnegoRealm.Ldap

/-! ## First occurrences -/

/-- What is kept of some texts: each of them once, in the order of their first occurrences. -/
structure FirstOccurrences (texts kept : List String) : Prop where
  mem_iff : ∀ text, text ∈ kept ↔ text ∈ texts
  ordered : kept.Pairwise fun first second => texts.idxOf first < texts.idxOf second

namespace FirstOccurrences

variable {texts kept : List String} {text : String}

private theorem nil : FirstOccurrences [] [] := ⟨fun _ => Iff.rfl, .nil⟩

private theorem nodup (occurrences : FirstOccurrences texts kept) : kept.Nodup :=
  occurrences.ordered.imp fun before same => (same ▸ before).false

/-- More texts change nothing about the order of those that are kept. -/
theorem ordered_append (occurrences : FirstOccurrences texts kept) (others : List String) :
    kept.Pairwise fun first second =>
      (texts ++ others).idxOf first < (texts ++ others).idxOf second := by
  refine occurrences.ordered.imp_of_mem fun first second before => ?_
  rwa [List.idxOf_append_of_mem ((occurrences.mem_iff _).mp first),
    List.idxOf_append_of_mem ((occurrences.mem_iff _).mp second)]

private theorem again (occurrences : FirstOccurrences texts kept) (member : text ∈ kept) :
    FirstOccurrences (texts ++ [text]) kept := by
  refine ⟨fun other => ?_, occurrences.ordered_append [text]⟩
  rw [occurrences.mem_iff, List.mem_append, List.mem_singleton, or_iff_left_of_imp]
  rintro rfl
  exact (occurrences.mem_iff _).mp member

private theorem fresh (occurrences : FirstOccurrences texts kept) (missing : text ∉ kept) :
    FirstOccurrences (texts ++ [text]) (kept ++ [text]) := by
  have absent : text ∉ texts := fun member => missing ((occurrences.mem_iff _).mpr member)
  refine ⟨fun other => ?_, List.pairwise_append.mpr ⟨occurrences.ordered_append [text],
    List.pairwise_singleton _ _, fun first member last final => ?_⟩⟩
  · rw [List.mem_append, List.mem_append, occurrences.mem_iff]
  · obtain rfl := List.mem_singleton.mp final
    have earlier := (occurrences.mem_iff _).mp member
    rw [List.idxOf_append_of_mem earlier, List.idxOf_append_of_notMem absent]
    exact (List.idxOf_lt_length_of_mem earlier).trans_le (Nat.le_add_right _ _)

/-- Going on through more texts keeps each that is new. -/
theorem distinct (occurrences : FirstOccurrences texts kept) (rest : List String) :
    FirstOccurrences (texts ++ rest) (Client.distinct kept rest) := by
  induction rest generalizing texts kept with
  | nil =>
      rw [List.append_nil]
      exact occurrences
  | cons text rest ih =>
      rw [List.append_cons]
      unfold Client.distinct
      split
      next seen => exact ih (occurrences.again (List.contains_iff_mem.mp seen))
      next missing =>
        exact ih (occurrences.fresh fun member => missing (List.contains_iff_mem.mpr member))

/-- What is kept is determined by the texts. -/
theorem eq {others : List String} (occurrences : FirstOccurrences texts kept)
    (again : FirstOccurrences texts others) : kept = others := by
  have same (text : String) : text ∈ kept ↔ text ∈ others :=
    (occurrences.mem_iff text).trans (again.mem_iff text).symm
  exact List.Pairwise.eq_of_mem_iff (r := Order.Preimage texts.idxOf (· < ·)) occurrences.ordered
    again.ordered same

end FirstOccurrences

/-! ## Values under a name -/

namespace RawEntry

variable {entry : RawEntry} {name : String} {texts : List String}

/-- Whether an attribute is called by a name, in any case of its ASCII letters. -/
def isCalled (name : String) (held : String × List Bytes) : Bool :=
  Text.eqIgnoringAsciiCase held.1 name

/-- The values that an entry holds under a name. -/
def valuesOf (entry : RawEntry) (name : String) : List Bytes :=
  (entry.attributes.filter (isCalled name)).flatMap (·.2)

/-- No two attributes have names that agree up to the case of ASCII letters. -/
def NamesApart (entry : RawEntry) : Prop :=
  entry.attributes.Pairwise fun first second =>
    Text.eqIgnoringAsciiCase first.1 second.1 = false

/-- At most one attribute is called by a name. -/
theorem NamesApart.filter_cases (apart : entry.NamesApart) (name : String) :
    entry.attributes.filter (isCalled name) = [] ∨
      ∃ held, entry.attributes.filter (isCalled name) = [held] := by
  have separate := List.Pairwise.filter (isCalled name) apart
  have called : ∀ held ∈ entry.attributes.filter (isCalled name), isCalled name held = true :=
    fun held member => (List.mem_filter.mp member).2
  generalize entry.attributes.filter (isCalled name) = found at separate called
  match found with
  | [] => exact .inl rfl
  | [held] => exact .inr ⟨held, rfl⟩
  | first :: second :: rest =>
      have alike : Text.eqIgnoringAsciiCase first.1 second.1 = true := by
        rw [Text.eqIgnoringAsciiCase_iff]
        have one := Text.eqIgnoringAsciiCase_iff.mp (called first (by simp))
        have two := Text.eqIgnoringAsciiCase_iff.mp (called second (by simp))
        exact one.trans two.symm
      have different := (List.pairwise_cons.mp separate).1 second List.mem_cons_self
      rw [alike] at different
      cases different

/-- What is read of the values under a name: the first attribute of that name of which anything is
read. -/
def underName (entry : RawEntry) (name : String) {α : Type} (read : List Bytes → Option α) :
    Option α :=
  entry.attributes.findSome? fun held => if isCalled name held then read held.2 else none

private theorem underName_eq_filter {α : Type} (entry : RawEntry) (name : String)
    (read : List Bytes → Option α) :
    entry.underName name read =
      (entry.attributes.filter (isCalled name)).findSome? fun held => read held.2 := by
  unfold underName
  induction entry.attributes with
  | nil => rfl
  | cons held rest ih =>
      by_cases called : isCalled name held = true
      · rw [List.filter_cons_of_pos called, List.findSome?_cons, List.findSome?_cons, ih,
          if_pos called]
      · rw [List.filter_cons_of_neg called, List.findSome?_cons, ih, if_neg called]

/-- What is read under a name is read of all values under it, unless there is no such attribute. -/
theorem NamesApart.underName_cases (apart : entry.NamesApart) (name : String) {α : Type}
    (read : List Bytes → Option α) :
    entry.underName name read = none ∧ entry.valuesOf name = [] ∨
      entry.underName name read = read (entry.valuesOf name) := by
  unfold valuesOf
  rw [underName_eq_filter]
  rcases apart.filter_cases name with none | ⟨held, one⟩
  · rw [none]
    exact .inl ⟨rfl, rfl⟩
  · rw [one, List.findSome?_singleton, List.flatMap_singleton]
    exact .inr rfl

/-! ## Texts -/

private theorem texts?_eq_some_iff {values : List Bytes} :
    texts? values = some texts ↔ values = texts.map Text.utf8 := by
  unfold texts?
  induction values generalizing texts with
  | nil => simp [eq_comm]
  | cons value rest ih =>
      simp only [List.mapM_cons, Option.bind_eq_bind, Option.bind_eq_some_iff, Option.pure_def,
        Option.some_inj, Text.ofUtf8?_eq_some_iff, ih]
      constructor
      · rintro ⟨text, rfl, others, rfl, rfl⟩
        rfl
      · intro encoded
        obtain ⟨text, others, rfl, one, more⟩ := List.map_eq_cons_iff.mp encoded.symm
        exact ⟨text, one, others, more.symm, rfl⟩

private theorem textValues_eq (apart : entry.NamesApart) (name : String) :
    entry.textValues name = (texts? (entry.valuesOf name)).getD [] := by
  have same : entry.textValues name = (entry.underName name texts?).getD [] := rfl
  rw [same]
  rcases apart.underName_cases name texts? with ⟨missing, none⟩ | held
  · rw [missing, none]
    rfl
  · rw [held]

/-- Values under a name that are UTF-8 are all read, in their order. -/
theorem textValues_eq_of_texts (apart : entry.NamesApart)
    (readable : entry.valuesOf name = texts.map Text.utf8) : entry.textValues name = texts := by
  rw [textValues_eq apart, texts?_eq_some_iff.mpr readable, Option.getD_some]

/-! ## A single value -/

/-- What is read of the values of an attribute that is binary. -/
def binary? (values : List Bytes) : Option (List Bytes) :=
  if (texts? values).isNone then
    some (values.filter (fun value => (Text.ofUtf8? value).isNone) ++
      values.filter (fun value => (Text.ofUtf8? value).isSome))
  else none

private theorem binaryValues?_eq (apart : entry.NamesApart) (name : String) :
    entry.binaryValues? name = binary? (entry.valuesOf name) := by
  have same : entry.binaryValues? name = entry.underName name binary? := by
    unfold binaryValues? underName binary? isCalled
    simp only [Bool.and_eq_true, ite_and]
  rw [same]
  rcases apart.underName_cases name binary? with ⟨missing, none⟩ | held
  · rw [missing, none]
    rfl
  · exact held

private theorem binary?_singleton (value : Bytes) :
    binary? [value] = if (Text.ofUtf8? value).isNone then some [value] else none := by
  unfold binary? texts?
  cases decoded : Text.ofUtf8? value <;> simp [decoded]

/-- The only value under a name is read byte for byte, whether or not it is UTF-8. -/
theorem firstBytes?_eq (apart : entry.NamesApart) (single : (entry.valuesOf name).length ≤ 1) :
    entry.firstBytes? name = (entry.valuesOf name).head? := by
  unfold firstBytes? firstText?
  rw [binaryValues?_eq apart]
  match values : entry.valuesOf name with
  | [] =>
      have none : entry.textValues name = [] := textValues_eq_of_texts apart values
      rw [none]
      rfl
  | [value] =>
      rw [binary?_singleton]
      cases decoded : Text.ofUtf8? value with
      | none => rfl
      | some text =>
          have encoded : Text.utf8 text = value := Text.ofUtf8?_eq_some_iff.mp decoded
          have one : entry.textValues name = [text] := by
            refine textValues_eq_of_texts apart ?_
            rw [values, List.map_singleton, encoded]
          rw [one]
          exact congrArg some encoded
  | first :: second :: rest =>
      rw [values] at single
      simp at single

end RawEntry

/-! ## What is told -/

/-- The groups of an account are what the entries of a search that succeeded tell. -/
theorem Client.userGroups_eq {client : Client} {account : String} {entries : List RawEntry}
    {result : Result} (binds : client.Binds)
    (replied : client.server.search (client.searchFor (.userGroups account)) =
      some (entries, result))
    (succeeded : result.code = Result.successCode) :
    client.userGroups account = .ok (Client.tell (.userGroups account) entries) :=
  Client.answer_eq_ok_iff.mpr ⟨binds, entries, result, replied, .inl ⟨succeeded, rfl⟩⟩

/-- **Attributes lose nothing.** When a search for an account succeeds, the account has no groups
if nothing is found. Otherwise, if the names of the attributes of the first entry are apart and its
`memberOf` values are UTF-8, it has as groups the lowercased texts of these values, each once and
in the order of their first occurrences, and each of them is its own lowercase form. Of an entry
whose names are apart, the only `objectSid` is read byte for byte, whatever its bytes are and
however the letters of its name are cased; and if its `objectClass` values are UTF-8, it is a group
if and only if one of them is `group` up to the case of ASCII letters. -/
theorem attributes_lose_nothing :
    (∀ (client : Client) (account : String) (entries : List RawEntry) (result : Result),
      client.Binds →
      client.server.search (client.searchFor (.userGroups account)) = some (entries, result) →
      result.code = Result.successCode →
      (entries = [] → client.userGroups account = .ok []) ∧
      ∀ user ∈ entries.head?, ∀ texts : List String, user.NamesApart →
        user.valuesOf "memberOf" = texts.map Text.utf8 →
        ∃ groups, client.userGroups account = .ok groups ∧
          FirstOccurrences (texts.map Text.lowercase) groups ∧ groups.Nodup ∧
          ∀ group ∈ groups, Text.lowercase group = group) ∧
    ∀ entry : RawEntry, entry.NamesApart →
      ((entry.valuesOf "objectSid").length ≤ 1 →
        entry.toEntry.objectSid = (entry.valuesOf "objectSid").head?) ∧
      ∀ classes : List String, entry.valuesOf "objectClass" = classes.map Text.utf8 →
        (entry.toEntry.isGroup = true ↔
          ∃ objectClass ∈ classes, Text.eqIgnoringAsciiCase objectClass "group" = true) := by
  refine ⟨?accounts, ?objects⟩
  case accounts =>
    intro client account entries result binds replied succeeded
    rw [Client.userGroups_eq binds replied succeeded]
    refine ⟨?_, ?_⟩
    · rintro rfl
      rfl
    · intro user first texts apart readable
      obtain ⟨rest, rfl⟩ := List.head?_eq_some_iff.mp (Option.mem_def.mp first)
      have told : Client.tell (.userGroups account) (user :: rest) =
          Client.distinct [] (texts.map Text.lowercase) := by
        rw [Client.tell, RawEntry.textValues_eq_of_texts apart readable]
      have occurrences : FirstOccurrences (texts.map Text.lowercase)
          (Client.distinct [] (texts.map Text.lowercase)) :=
        FirstOccurrences.nil.distinct (texts.map Text.lowercase)
      refine ⟨_, congrArg Except.ok told, occurrences, occurrences.nodup, ?_⟩
      intro group member
      obtain ⟨text, -, rfl⟩ := List.mem_map.mp ((occurrences.mem_iff group).mp member)
      exact Text.lowercase_lowercase text
  case objects =>
    intro entry apart
    refine ⟨fun single => RawEntry.firstBytes?_eq apart single, ?_⟩
    intro classes readable
    have listed : entry.toEntry.objectClass = classes :=
      RawEntry.textValues_eq_of_texts apart readable
    rw [Directory.Entry.isGroup, listed, List.any_eq_true]

/-- A group with one of its groups in two spellings, and an identifier that is not UTF-8. -/
def auditors : RawEntry where
  dn := "CN=Auditors,DC=x"
  attributes :=
    [("MemberOf", ["CN=Staff,DC=x", "CN=Ops,DC=x", "cn=staff,dc=x"].map Text.utf8),
      ("objectclass", ["top", "Group"].map Text.utf8), ("OBJECTSID", [[0x01, 0xFF]])]

/-- A client whose server finds this group in every search. -/
def auditorsClient : Client where
  config := {}
  server :=
    { refusal := none, bind := fun _ _ => some {}, search := fun _ => some ([auditors], {}) }

/-- Of the two spellings the first one counts, and the identifier stays what it is. -/
theorem attributes_lose_nothing_of_auditors :
    auditorsClient.Binds ∧ auditors.NamesApart ∧
      auditors.valuesOf "memberOf" =
        ["CN=Staff,DC=x", "CN=Ops,DC=x", "cn=staff,dc=x"].map Text.utf8 ∧
      auditors.valuesOf "objectClass" = ["top", "Group"].map Text.utf8 ∧
      auditorsClient.userGroups "auditors" = .ok ["cn=staff,dc=x", "cn=ops,dc=x"] ∧
      auditors.toEntry.objectSid = some [0x01, 0xFF] ∧ auditors.toEntry.isGroup = true := by
  have binds : auditorsClient.Binds := ⟨rfl, {}, rfl, rfl⟩
  have apart : auditors.NamesApart := by
    unfold RawEntry.NamesApart
    decide
  have memberOf : auditors.valuesOf "memberOf" =
      ["CN=Staff,DC=x", "CN=Ops,DC=x", "cn=staff,dc=x"].map Text.utf8 := rfl
  have objectClass : auditors.valuesOf "objectClass" = ["top", "Group"].map Text.utf8 := rfl
  have single : (auditors.valuesOf "objectSid").length ≤ 1 := by decide
  obtain ⟨accounts, objects⟩ := attributes_lose_nothing
  obtain ⟨-, found⟩ := accounts auditorsClient "auditors" [auditors] {} binds rfl rfl
  obtain ⟨groups, told, occurrences, -, -⟩ := found auditors rfl _ apart memberOf
  obtain ⟨identified, classified⟩ := objects auditors apart
  refine ⟨binds, apart, memberOf, objectClass, told.trans (congrArg _ ?_), ?_, ?_⟩
  · exact occurrences.eq (FirstOccurrences.nil.distinct _)
  · exact identified single
  · exact (classified _ objectClass).mpr ⟨"Group", by decide, by decide⟩

end SpnegoRealm.Ldap
