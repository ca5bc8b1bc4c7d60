import SpnegoRealm.Text.Numeral
import SpnegoRealm.Text.Utf8

/-! # The language of search filters

The grammar of search filters as RFC 4515 gives it, as a relation between texts and conditions
(`SpnegoRealm.Ldap.Reads`). A name ends at the first character that cannot stand in it
(`SpnegoRealm.Ldap.split_name`), and a value spells one byte string and has no parenthesis and no
asterisk (`SpnegoRealm.Ldap.Value.eq`, `SpnegoRealm.Ldap.Value.notMem`).

The grammar is ambiguous in two places: an asterisk by itself is a presence or a substring of
nothing, and `dn` is a mark or the name of a rule. The relation has both readings.
-/

namespace SpnegoRealm.Ldap

/-! ## Conditions -/

/-- How an attribute is compared with a value. -/
inductive Relation where
  | equal
  | approximate
  | greaterOrEqual
  | lessOrEqual
  deriving DecidableEq, Repr

/-- The characters that a filter has for a comparison. -/
def Relation.sign : Relation → List Char
  | equal => ['=']
  | approximate => ['~', '=']
  | greaterOrEqual => ['>', '=']
  | lessOrEqual => ['<', '=']

/-- What a filter asks of an object. -/
inductive Condition where
  | all (conditions : List Condition)
  | any (conditions : List Condition)
  | not (condition : Condition)
  | compares (name : String) (relation : Relation) (value : Bytes)
  | present (name : String)
  | substrings (name : String) (first : Bytes) (between : List Bytes) (last : Bytes)
  | extensible (name : Option String) (withDn : Bool) (rule : Option String) (value : Bytes)

/-! ## Names -/

/-- Whether a character can stand in a short name. -/
def isKeyChar (c : Char) : Bool :=
  c.isAlpha || c.isDigit || c == '-'

/-- Whether digits write a number without needless zeros. -/
def isNumber : List Char → Bool
  | [] => false
  | first :: rest => (first :: rest).all Char.isDigit && (first != '0' || rest.isEmpty)

/-- A short name, or numbers with dots between them. -/
inductive ObjectIdentifier : List Char → Prop
  | short {first : Char} {rest : List Char} (letter : first.isAlpha = true)
    (keys : rest.all isKeyChar = true) : ObjectIdentifier (first :: rest)
  | numeric {first : List Char} {others : List (List Char)} (starts : isNumber first = true)
    (continues : others.all isNumber = true) (dotted : others ≠ []) :
    ObjectIdentifier (first ++ others.flatMap ('.' :: ·))

/-- Whether characters name an option of an attribute. -/
def isOption (name : List Char) : Bool :=
  !name.isEmpty && name.all isKeyChar

/-- An attribute type with options. -/
inductive AttributeDescription : List Char → Prop
  | optioned {type : List Char} {options : List (List Char)} (identified : ObjectIdentifier type)
    (named : options.all isOption = true) :
    AttributeDescription (type ++ options.flatMap (';' :: ·))

/-! ## Values -/

/-- The characters that stand for themselves in no value. -/
def reserved : List Char := ['\x00', '(', ')', '*', '\\']

/-- The bytes that a value spells. -/
inductive Value : List Char → Bytes → Prop
  | nil : Value [] []
  | normal {c : Char} {rest : List Char} {bytes : Bytes} (unreserved : c ∉ reserved)
    (others : Value rest bytes) : Value (c :: rest) (String.utf8EncodeChar c ++ bytes)
  | escaped {high low : Char} {highValue lowValue : Nat} {rest : List Char} {bytes : Bytes}
    (highDigit : Text.Numeral.digit? 16 high = some highValue)
    (lowDigit : Text.Numeral.digit? 16 low = some lowValue) (others : Value rest bytes) :
    Value ('\\' :: high :: low :: rest) (UInt8.ofNat (highValue * 16 + lowValue) :: bytes)

/-! ## Filters -/

/-- The mark that the components of an object's name are matched as well. -/
inductive DnMark : List Char → Bool → Prop
  | absent : DnMark [] false
  | present {mark : List Char} (named : mark.map Char.toLower = [':', 'd', 'n']) : DnMark mark true

/-- A rule with the colon before it. -/
def ruleMark (rule : Option String) : List Char :=
  rule.elim [] fun name => ':' :: name.toList

/-- A condition on one attribute, without its parentheses. -/
inductive Item : List Char → Condition → Prop
  | compares {name : String} {relation : Relation} {value : List Char} {bytes : Bytes}
    (described : AttributeDescription name.toList) (valued : Value value bytes) :
    Item (name.toList ++ (relation.sign ++ value)) (.compares name relation bytes)
  | present {name : String} (described : AttributeDescription name.toList) :
    Item (name.toList ++ ['=', '*']) (.present name)
  | substrings {name : String} {first last : List Char} {firstBytes lastBytes : Bytes}
    {between : List (List Char × Bytes)} (described : AttributeDescription name.toList)
    (starts : Value first firstBytes) (continues : ∀ part ∈ between, Value part.1 part.2)
    (ends : Value last lastBytes) :
    Item (name.toList ++ '=' :: (first ++ '*' :: (between.flatMap (·.1 ++ ['*']) ++ last)))
      (.substrings name firstBytes (between.map Prod.snd) lastBytes)
  | extensible {name rule : Option String} {withDn : Bool} {mark value : List Char}
    {bytes : Bytes} (either : name ≠ none ∨ rule ≠ none)
    (described : ∀ type ∈ name, AttributeDescription type.toList) (marked : DnMark mark withDn)
    (ruled : ∀ identifier ∈ rule, ObjectIdentifier identifier.toList) (valued : Value value bytes) :
    Item ((name.elim [] String.toList) ++ (mark ++ (ruleMark rule ++ ':' :: '=' :: value)))
      (.extensible name withDn rule bytes)

/-- A text in parentheses. -/
def wrap (body : List Char) : List Char := '(' :: (body ++ [')'])

/-- The conditions that a filter can be read as. -/
inductive Reads : List Char → Condition → Prop
  | all {parts : List (List Char × Condition)} (filled : parts ≠ [])
    (each : ∀ part ∈ parts, Reads part.1 part.2) :
    Reads (wrap ('&' :: parts.flatMap Prod.fst)) (.all (parts.map Prod.snd))
  | any {parts : List (List Char × Condition)} (filled : parts ≠ [])
    (each : ∀ part ∈ parts, Reads part.1 part.2) :
    Reads (wrap ('|' :: parts.flatMap Prod.fst)) (.any (parts.map Prod.snd))
  | not {text : List Char} {condition : Condition} (inner : Reads text condition) :
    Reads (wrap ('!' :: text)) (.not condition)
  | item {body : List Char} {condition : Condition} (single : Item body condition) :
    Reads (wrap body) condition

variable {value : List Char} {bytes : Bytes}

/-! ## Where names end -/

/-- Whether a character can stand in a name. -/
def isNameChar (c : Char) : Bool :=
  isKeyChar c || c == '.' || c == ';'

private theorem isNameChar_of_isKeyChar {c : Char} (key : isKeyChar c = true) :
    isNameChar c = true := by
  unfold isNameChar
  rw [key]
  rfl

private theorem isNameChar_of_isDigit {c : Char} (digit : c.isDigit = true) :
    isNameChar c = true := by
  unfold isNameChar isKeyChar
  rw [digit]
  simp

private theorem isDigit_of_isNumber {digits : List Char} (number : isNumber digits = true) :
    ∀ c ∈ digits, c.isDigit = true := by
  cases digits with
  | nil => simp
  | cons first rest =>
      unfold isNumber at number
      rw [Bool.and_eq_true] at number
      exact List.all_eq_true.mp number.1

/-- A list of names with a mark before each of them has no characters but theirs. -/
theorem isNameChar_of_mem_flatMap {names : List (List Char)} {mark : Char}
    (marked : isNameChar mark = true) (each : ∀ name ∈ names, ∀ c ∈ name, isNameChar c = true) :
    ∀ c ∈ names.flatMap (mark :: ·), isNameChar c = true := by
  intro c member
  obtain ⟨name, listed, inside⟩ := List.mem_flatMap.mp member
  rcases List.mem_cons.mp inside with rfl | later
  · exact marked
  · exact each name listed c later

/-- All characters of an identifier can stand in a name. -/
theorem ObjectIdentifier.isNameChar {name : List Char} (identifier : ObjectIdentifier name) :
    ∀ c ∈ name, isNameChar c = true := by
  cases identifier with
  | short letter keys =>
      intro c member
      rcases List.mem_cons.mp member with rfl | later
      · apply isNameChar_of_isKeyChar
        unfold isKeyChar
        rw [letter]
        rfl
      · exact isNameChar_of_isKeyChar (List.all_eq_true.mp keys c later)
  | numeric starts continues dotted =>
      intro c member
      rcases List.mem_append.mp member with early | late
      · exact isNameChar_of_isDigit (isDigit_of_isNumber starts c early)
      · refine isNameChar_of_mem_flatMap (by decide) ?_ c late
        intro number listed digit inside
        have valid := List.all_eq_true.mp continues number listed
        exact isNameChar_of_isDigit (isDigit_of_isNumber valid digit inside)

/-- An identifier has a character. -/
theorem ObjectIdentifier.ne_nil {name : List Char} (identifier : ObjectIdentifier name) :
    name ≠ [] := by
  cases identifier with
  | short letter keys => simp
  | @numeric first others starts continues dotted =>
      rintro empty
      obtain ⟨rfl, _⟩ := List.append_eq_nil_iff.mp empty
      cases starts

/-- All characters of an attribute can stand in a name. -/
theorem AttributeDescription.isNameChar {name : List Char} (described : AttributeDescription name) :
    ∀ c ∈ name, isNameChar c = true := by
  obtain ⟨identified, named⟩ := described
  intro c member
  rcases List.mem_append.mp member with early | late
  · exact identified.isNameChar c early
  · refine isNameChar_of_mem_flatMap (by decide) ?_ c late
    intro option listed key inside
    have valid := List.all_eq_true.mp named option listed
    rw [isOption, Bool.and_eq_true] at valid
    exact isNameChar_of_isKeyChar (List.all_eq_true.mp valid.2 key inside)

/-- An attribute has a character. -/
theorem AttributeDescription.ne_nil {name : List Char} (described : AttributeDescription name) :
    name ≠ [] := by
  obtain ⟨identified, _⟩ := described
  intro empty
  exact identified.ne_nil (List.append_eq_nil_iff.mp empty).1

/-- A name ends at the first character that cannot stand in it. -/
theorem split_name {first second rest others : List Char} {mark sign : Char}
    (firstName : ∀ c ∈ first, isNameChar c = true) (secondName : ∀ c ∈ second, isNameChar c = true)
    (marked : isNameChar mark = false) (signed : isNameChar sign = false)
    (same : first ++ mark :: rest = second ++ sign :: others) :
    first = second ∧ mark = sign ∧ rest = others := by
  have leading := congrArg (List.takeWhile isNameChar) same
  have trailing := congrArg (List.dropWhile isNameChar) same
  rw [List.takeWhile_append_of_pos firstName, List.takeWhile_append_of_pos secondName,
    List.takeWhile_cons_of_neg (by simp [marked]), List.takeWhile_cons_of_neg (by simp [signed]),
    List.append_nil, List.append_nil] at leading
  rw [List.dropWhile_append_of_pos firstName, List.dropWhile_append_of_pos secondName,
    List.dropWhile_cons_of_neg (by simp [marked]),
    List.dropWhile_cons_of_neg (by simp [signed])] at trailing
  exact ⟨leading, List.cons.inj trailing⟩

/-! ## What values say -/

/-- A value spells one byte string only. -/
theorem Value.eq {bytes others : Bytes} (spelled : Value value bytes) (again : Value value others) :
    bytes = others := by
  induction spelled generalizing others with
  | nil =>
      cases again
      rfl
  | normal unreserved _ ih =>
      cases again with
      | normal _ rest => rw [ih rest]
      | escaped _ _ _ => exact (unreserved (by decide)).elim
  | escaped highDigit lowDigit _ ih =>
      cases again with
      | normal unreserved _ => exact (unreserved (by decide)).elim
      | escaped high low rest =>
          obtain rfl := Option.some.inj (highDigit.symm.trans high)
          obtain rfl := Option.some.inj (lowDigit.symm.trans low)
          rw [ih rest]

/-- No value has a parenthesis or an asterisk. -/
theorem Value.notMem {mark : Char} (spelled : Value value bytes)
    (special : mark = '(' ∨ mark = ')' ∨ mark = '*') : mark ∉ value := by
  have kept : mark ∈ reserved ∧ mark ≠ '\\' ∧ Text.Numeral.digit? 16 mark = none := by
    rcases special with rfl | rfl | rfl <;> decide
  have noDigit : ∀ {c : Char} {digit : Nat}, Text.Numeral.digit? 16 c = some digit → mark ≠ c := by
    rintro c digit found rfl
    rw [kept.2.2] at found
    cases found
  induction spelled with
  | nil => simp
  | normal unreserved _ ih =>
      rw [List.mem_cons, not_or]
      refine ⟨?_, ih⟩
      rintro rfl
      exact unreserved kept.1
  | escaped highDigit lowDigit _ ih =>
      simp only [List.mem_cons, not_or]
      exact ⟨kept.2.1, noDigit highDigit, noDigit lowDigit, ih⟩

end SpnegoRealm.Ldap
