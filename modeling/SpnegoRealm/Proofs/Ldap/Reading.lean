import SpnegoRealm.Proofs.Ldap.Grammar
import SpnegoRealm.Proofs.Text.Casing

/-! # Filters with one reading

Parentheses come in pairs, so filters that follow each other can be told apart
(`SpnegoRealm.Ldap.Closed.flatten_inj`). A conjunction of filters with one reading each has one
reading (`SpnegoRealm.Ldap.Means.all`). An equality has one (`SpnegoRealm.Ldap.means_equality`), and
so has a match by a rule whose name cannot be taken for the mark `dn`
(`SpnegoRealm.Ldap.means_matching`).
-/

namespace SpnegoRealm.Ldap

variable {text body value : List Char} {condition : Condition} {bytes : Bytes} {name : String}

/-! ## Balanced parentheses -/

/-- A text whose parentheses come in pairs. -/
inductive Balanced : List Char → Prop
  | nil : Balanced []
  | plain {c : Char} {rest : List Char} (opensNot : c ≠ '(') (closesNot : c ≠ ')')
    (others : Balanced rest) : Balanced (c :: rest)
  | group {inner rest : List Char} (inside : Balanced inner) (others : Balanced rest) :
    Balanced ('(' :: (inner ++ ')' :: rest))

private theorem Balanced.of_notMem (unopened : '(' ∉ text) (unclosed : ')' ∉ text) :
    Balanced text := by
  induction text with
  | nil => exact .nil
  | cons c rest ih =>
      rw [List.mem_cons, not_or] at unopened unclosed
      exact .plain (Ne.symm unopened.1) (Ne.symm unclosed.1) (ih unopened.2 unclosed.2)

/-- Two balanced texts before a closing parenthesis are the same if what follows can be joined. -/
theorem Balanced.split {again rest others : List Char} (balanced : Balanced body)
    (likewise : Balanced again) (same : body ++ ')' :: rest = again ++ ')' :: others) :
    body = again ∧ rest = others := by
  induction balanced generalizing again rest others with
  | nil =>
      cases likewise with
      | nil => exact ⟨rfl, (List.cons.inj same).2⟩
      | plain _ closesNot _ => exact (closesNot (List.cons.inj same).1.symm).elim
      | group _ _ => simp at same
  | plain opensNot closesNot _ ih =>
      cases likewise with
      | nil => exact (closesNot (List.cons.inj same).1).elim
      | plain _ _ later =>
          obtain ⟨rfl, joined⟩ := List.cons.inj same
          obtain ⟨rfl, rfl⟩ := ih later joined
          exact ⟨rfl, rfl⟩
      | group _ _ => exact (opensNot (List.cons.inj same).1).elim
  | group _ _ innerSplit restSplit =>
      cases likewise with
      | nil => simp at same
      | plain opensNot _ _ => exact (opensNot (List.cons.inj same).1.symm).elim
      | group inside later =>
          simp only [List.cons_append, List.append_assoc, List.cons.injEq, true_and] at same
          obtain ⟨rfl, joined⟩ := innerSplit inside same
          obtain ⟨rfl, rfl⟩ := restSplit later joined
          exact ⟨rfl, rfl⟩

/-- A text in parentheses that come in pairs. -/
def Closed (text : List Char) : Prop :=
  ∃ body, Balanced body ∧ text = wrap body

private theorem wrap_append (body rest : List Char) :
    wrap body ++ rest = '(' :: (body ++ ')' :: rest) := by
  simp [wrap]

private theorem wrap_injective : Function.Injective wrap := by
  intro body other same
  exact List.append_cancel_right (List.cons.inj same).2

private theorem balanced_flatMap {parts : List (List Char × Condition)}
    (closed : ∀ part ∈ parts, Closed part.1) : Balanced (parts.flatMap Prod.fst) := by
  induction parts with
  | nil => exact .nil
  | cons part rest ih =>
      obtain ⟨body, balanced, same⟩ := closed part List.mem_cons_self
      have others := ih fun other member => closed other (List.mem_cons_of_mem _ member)
      rw [List.flatMap_cons, same, wrap_append]
      exact .group balanced others

/-- Filters that follow each other can be told apart. -/
theorem Closed.flatten_inj {texts others : List (List Char)} (closed : ∀ text ∈ texts, Closed text)
    (likewise : ∀ text ∈ others, Closed text) (same : texts.flatten = others.flatten) :
    texts = others := by
  induction texts generalizing others with
  | nil =>
      cases others with
      | nil => rfl
      | cons text rest =>
          obtain ⟨body, _, wrapped⟩ := likewise text List.mem_cons_self
          rw [List.flatten_cons, wrapped] at same
          cases same
  | cons text rest ih =>
      obtain ⟨body, balanced, rfl⟩ := closed text List.mem_cons_self
      cases others with
      | nil => cases same
      | cons other more =>
          obtain ⟨again, paired, rfl⟩ := likewise other List.mem_cons_self
          rw [List.flatten_cons, List.flatten_cons, wrap_append, wrap_append] at same
          obtain ⟨rfl, joined⟩ := balanced.split paired (List.cons.inj same).2
          have remaining := ih (fun text member => closed text (List.mem_cons_of_mem _ member))
            (fun text member => likewise text (List.mem_cons_of_mem _ member)) joined
          rw [remaining]

/-! ## Items -/

private theorem notMem_of_isNameChar {letters : List Char} {sign : Char}
    (named : ∀ c ∈ letters, isNameChar c = true) (foreign : isNameChar sign = false) :
    sign ∉ letters := by
  intro member
  rw [named sign member] at foreign
  cases foreign

/-- The sign of a comparison ends a name, is not the colon of a rule, and tells the comparison. -/
theorem Relation.sign_eq_cons (relation : Relation) : ∃ mark rest, relation.sign = mark :: rest ∧
    isNameChar mark = false ∧ mark ≠ ':' ∧ (mark = '=' → relation = .equal ∧ rest = []) := by
  cases relation <;> exact ⟨_, _, rfl, by decide, by decide, by decide⟩

private theorem Relation.notMem {mark : Char} (relation : Relation)
    (parenthesis : mark = '(' ∨ mark = ')') : mark ∉ relation.sign := by
  rcases parenthesis with rfl | rfl <;> cases relation <;> decide

private theorem isNameChar_of_mem_elim {name : Option String}
    (described : ∀ type ∈ name, AttributeDescription type.toList) :
    ∀ c ∈ name.elim [] String.toList, isNameChar c = true := by
  cases name with
  | none => simp
  | some name => exact (described name rfl).isNameChar

private theorem DnMark.eq_or_cons {mark : List Char} {withDn : Bool} (marked : DnMark mark withDn) :
    mark = [] ∧ withDn = false ∨
      ∃ letter rest, mark = ':' :: letter :: rest ∧ letter.toLower = 'd' := by
  cases marked with
  | absent => exact Or.inl ⟨rfl, rfl⟩
  | present named =>
      right
      obtain ⟨colon, rest, rfl, lowers, named⟩ := List.map_eq_cons_iff.mp named
      obtain ⟨letter, last, rfl, letterLowers, _⟩ := List.map_eq_cons_iff.mp named
      obtain rfl := Text.eq_of_toLower_eq lowers (Or.inl (by decide))
      exact ⟨letter, last, rfl, letterLowers⟩

private theorem DnMark.notMem {text : List Char} {withDn : Bool} {mark : Char}
    (marked : DnMark text withDn)
    (parenthesis : mark = '(' ∨ mark = ')') : mark ∉ text := by
  have foreign : mark.toLower ∉ [':', 'd', 'n'] := by
    rcases parenthesis with rfl | rfl <;> decide
  cases marked with
  | absent => simp
  | present named =>
      intro member
      apply foreign
      rw [← named]
      exact List.mem_map.mpr ⟨mark, member, rfl⟩

/-- After its name, an extensible match goes on with a colon. -/
theorem DnMark.append_eq_cons {mark : List Char} {withDn : Bool} (marked : DnMark mark withDn)
    (rule : Option String) (value : List Char) :
    ∃ rest, mark ++ (ruleMark rule ++ ':' :: '=' :: value) = ':' :: rest := by
  rcases marked.eq_or_cons with ⟨rfl, _⟩ | ⟨letter, last, rfl, _⟩
  · cases rule <;> exact ⟨_, rfl⟩
  · exact ⟨_, rfl⟩

/-- The parentheses of a filter are never those of an item. -/
theorem Item.notMem {mark : Char} (single : Item body condition)
    (parenthesis : mark = '(' ∨ mark = ')') : mark ∉ body := by
  have foreign : isNameChar mark = false := by
    rcases parenthesis with rfl | rfl <;> decide
  have special : mark = '(' ∨ mark = ')' ∨ mark = '*' := parenthesis.imp_right Or.inl
  have noSign : mark ≠ '=' ∧ mark ≠ '*' ∧ mark ≠ ':' := by
    rcases parenthesis with rfl | rfl <;> decide
  cases single with
  | @compares _ relation _ _ described valued =>
      simp only [List.mem_append, not_or]
      exact ⟨notMem_of_isNameChar described.isNameChar foreign, relation.notMem parenthesis,
        valued.notMem special⟩
  | present described =>
      simp only [List.mem_append, List.mem_cons, List.not_mem_nil, or_false, not_or]
      exact ⟨notMem_of_isNameChar described.isNameChar foreign, noSign.1, noSign.2.1⟩
  | substrings described starts continues ends =>
      simp only [List.mem_append, List.mem_cons, List.mem_flatMap, List.not_mem_nil, or_false,
        not_or]
      refine ⟨notMem_of_isNameChar described.isNameChar foreign, noSign.1, starts.notMem special,
        noSign.2.1, ?_, ends.notMem special⟩
      rintro ⟨part, listed, inside | asterisk⟩
      · exact (continues part listed).notMem special inside
      · exact noSign.2.1 asterisk
  | @extensible name rule _ _ _ _ _ described marked ruled valued =>
      simp only [List.mem_append, List.mem_cons, not_or]
      refine ⟨notMem_of_isNameChar (isNameChar_of_mem_elim described) foreign,
        marked.notMem parenthesis, ?_, noSign.2.2, noSign.1, valued.notMem special⟩
      cases rule with
      | none => simp [ruleMark]
      | some rule =>
          unfold ruleMark
          rw [Option.elim_some, List.mem_cons, not_or]
          exact ⟨noSign.2.2, notMem_of_isNameChar (ruled rule rfl).isNameChar foreign⟩

/-- No item begins with the sign of a junction. -/
theorem Item.ne_cons {mark : Char} (single : Item body condition)
    (junction : mark = '&' ∨ mark = '|' ∨ mark = '!') (rest : List Char) : body ≠ mark :: rest := by
  have foreign : isNameChar mark = false := by
    rcases junction with rfl | rfl | rfl <;> decide
  have noColon : ':' ≠ mark := by
    rcases junction with rfl | rfl | rfl <;> decide
  have noName : ∀ {type : String} {others : List Char}, AttributeDescription type.toList →
      type.toList ++ others ≠ mark :: rest := by
    intro type others described same
    obtain ⟨first, more, letters⟩ := List.exists_cons_of_ne_nil described.ne_nil
    have named := described.isNameChar first (by simp [letters])
    rw [letters] at same
    obtain rfl : first = mark := (List.cons.inj same).1
    rw [foreign] at named
    cases named
  cases single with
  | compares described valued => exact noName described
  | present described => exact noName described
  | substrings described starts continues ends => exact noName described
  | @extensible name rule _ _ value _ _ described marked ruled valued =>
      cases name with
      | some name => exact noName (described name rfl)
      | none =>
          intro same
          obtain ⟨others, colon⟩ := marked.append_eq_cons rule value
          rw [colon] at same
          exact noColon (List.cons.inj same).1

/-- What an item that begins with a name asks, by what stands after the name. -/
theorem Item.after_name {mark : Char} {rest : List Char}
    (described : AttributeDescription name.toList) (foreign : isNameChar mark = false)
    (single : Item (name.toList ++ mark :: rest) condition) :
    (∃ relation bytes value, mark :: rest = Relation.sign relation ++ value ∧ Value value bytes ∧
      condition = .compares name relation bytes) ∨
    (mark = '=' ∧ '*' ∈ rest) ∨
    ∃ dn withDn rule value bytes, mark :: rest = dn ++ (ruleMark rule ++ ':' :: '=' :: value) ∧
      DnMark dn withDn ∧ (∀ identifier ∈ rule, ObjectIdentifier identifier.toList) ∧
      Value value bytes ∧ condition = .extensible (some name) withDn rule bytes := by
  generalize whole : name.toList ++ mark :: rest = text at single
  cases single with
  | @compares other relation value bytes likewise valued =>
      left
      obtain ⟨sign, more, signed, ends, _⟩ := relation.sign_eq_cons
      rw [signed] at whole
      obtain ⟨same, rfl, rfl⟩ :=
        split_name described.isNameChar likewise.isNameChar foreign ends whole
      rw [String.toList_inj.mp same]
      refine ⟨relation, bytes, value, ?_, valued, rfl⟩
      rw [signed]
      rfl
  | present likewise =>
      obtain ⟨_, rfl, rfl⟩ :=
        split_name described.isNameChar likewise.isNameChar foreign (by decide) whole
      exact Or.inr (Or.inl ⟨rfl, by simp⟩)
  | substrings likewise starts continues ends =>
      obtain ⟨_, rfl, rfl⟩ :=
        split_name described.isNameChar likewise.isNameChar foreign (by decide) whole
      exact Or.inr (Or.inl ⟨rfl, by simp⟩)
  | @extensible other rule withDn dn value bytes _ likewise marked ruled valued =>
      obtain ⟨more, colon⟩ := marked.append_eq_cons rule value
      rw [colon] at whole
      obtain ⟨same, rfl, rfl⟩ := split_name described.isNameChar (isNameChar_of_mem_elim likewise)
        foreign (by decide) whole
      cases other with
      | none => exact (described.ne_nil same).elim
      | some other =>
          rw [String.toList_inj.mp same]
          exact Or.inr (Or.inr ⟨dn, withDn, rule, value, bytes, colon.symm, marked, ruled, valued,
            rfl⟩)

/-- An attribute, an equals sign and a value are one item only: the comparison. -/
theorem Item.eq_compares (described : AttributeDescription name.toList)
    (spelled : Value value bytes) (single : Item (name.toList ++ '=' :: value) condition) :
    condition = .compares name .equal bytes := by
  rcases single.after_name described (by decide) with
    ⟨relation, _, _, signed, valued, rfl⟩ | ⟨_, asterisk⟩ |
      ⟨dn, withDn, rule, again, _, colon, marked, _, _, rfl⟩
  · obtain ⟨mark, rest, sign, _, _, told⟩ := relation.sign_eq_cons
    rw [sign, List.cons_append] at signed
    obtain ⟨equals, rfl⟩ := List.cons.inj signed
    obtain ⟨rfl, rfl⟩ := told equals.symm
    rw [spelled.eq valued]
  · exact (spelled.notMem (Or.inr (Or.inr rfl)) asterisk).elim
  · obtain ⟨rest, same⟩ := marked.append_eq_cons rule again
    rw [same] at colon
    cases (List.cons.inj colon).1

/-- An attribute, a rule and a value are one item only: the match by that rule. -/
theorem Item.eq_extensible {rule : String} (described : AttributeDescription name.toList)
    (ruled : ObjectIdentifier rule.toList)
    (unmarked : rule.toList.head?.map Char.toLower ≠ some 'd') (spelled : Value value bytes)
    (single : Item (name.toList ++ ':' :: (rule.toList ++ ':' :: '=' :: value)) condition) :
    condition = .extensible (some name) false (some rule) bytes := by
  rcases single.after_name described (by decide) with
    ⟨relation, _, _, signed, _, rfl⟩ | ⟨equals, _⟩ |
      ⟨dn, withDn, other, again, _, colon, marked, likewise, valued, rfl⟩
  · obtain ⟨mark, rest, sign, _, noColon, _⟩ := relation.sign_eq_cons
    rw [sign, List.cons_append] at signed
    exact (noColon (List.cons.inj signed).1.symm).elim
  · cases equals
  · rcases marked.eq_or_cons with ⟨rfl, rfl⟩ | ⟨letter, last, rfl, lowers⟩
    · cases other with
      | none =>
          obtain ⟨_, impossible, _⟩ := split_name ruled.isNameChar (List.forall_mem_nil _)
            (by decide) (by decide) (List.cons.inj colon).2
          cases impossible
      | some other =>
          obtain ⟨same, _, values⟩ := split_name ruled.isNameChar (likewise other rfl).isNameChar
            (by decide) (by decide) (List.cons.inj colon).2
          obtain ⟨_, rfl⟩ := List.cons.inj values
          rw [String.toList_inj.mp same, spelled.eq valued]
    · obtain ⟨first, more, letters⟩ := List.exists_cons_of_ne_nil ruled.ne_nil
      rw [letters] at colon
      obtain rfl : first = letter := (List.cons.inj (List.cons.inj colon).2).1
      refine (unmarked ?_).elim
      rw [letters, List.head?_cons, Option.map_some, lowers]

/-! ## Filters with one reading -/

/-- A text is a filter that can be read as one condition only. -/
def Means (text : List Char) (condition : Condition) : Prop :=
  ∀ other, Reads text other ↔ other = condition

/-- A filter opens with a parenthesis and closes with the one that belongs to it. -/
theorem Reads.closed (reads : Reads text condition) : Closed text := by
  induction reads with
  | all _ _ ih => exact ⟨_, .plain (by decide) (by decide) (balanced_flatMap ih), rfl⟩
  | any _ _ ih => exact ⟨_, .plain (by decide) (by decide) (balanced_flatMap ih), rfl⟩
  | not _ ih =>
      obtain ⟨body, balanced, rfl⟩ := ih
      exact ⟨_, .plain (by decide) (by decide) (.group balanced .nil), rfl⟩
  | item single =>
      exact ⟨_, .of_notMem (single.notMem (Or.inl rfl)) (single.notMem (Or.inr rfl)), rfl⟩

/-- A filter with one reading can be read so. -/
theorem Means.reads (means : Means text condition) : Reads text condition :=
  (means condition).mpr rfl

/-- A filter of one item has the readings of the item. -/
theorem Means.item (single : Item body condition)
    (only : ∀ other, Item body other → other = condition) : Means (wrap body) condition := by
  intro other
  constructor
  · intro reads
    generalize whole : wrap body = text at reads
    cases reads with
    | all _ _ => exact (single.ne_cons (by decide) _ (wrap_injective whole)).elim
    | any _ _ => exact (single.ne_cons (by decide) _ (wrap_injective whole)).elim
    | not _ => exact (single.ne_cons (by decide) _ (wrap_injective whole)).elim
    | item again =>
        obtain rfl := wrap_injective whole
        exact only other again
  · rintro rfl
    exact .item single

/-- An equality has one reading. -/
theorem means_equality (described : AttributeDescription name.toList)
    (spelled : Value value bytes) :
    Means (wrap (name.toList ++ '=' :: value)) (.compares name .equal bytes) := by
  have single : Item (name.toList ++ (Relation.equal.sign ++ value))
      (.compares name .equal bytes) := .compares described spelled
  exact .item single fun _ => Item.eq_compares described spelled

/-- A match by a rule has one reading, if the rule cannot be taken for the mark. -/
theorem means_matching {rule : String} (described : AttributeDescription name.toList)
    (ruled : ObjectIdentifier rule.toList)
    (unmarked : rule.toList.head?.map Char.toLower ≠ some 'd') (spelled : Value value bytes) :
    Means (wrap (name.toList ++ ':' :: (rule.toList ++ ':' :: '=' :: value)))
      (.extensible (some name) false (some rule) bytes) := by
  refine .item ?_ fun _ => Item.eq_extensible described ruled unmarked spelled
  have single : Item ((some name).elim [] String.toList ++
      ([] ++ (ruleMark (some rule) ++ ':' :: '=' :: value)))
        (.extensible (some name) false (some rule) bytes) := by
    refine .extensible (Or.inl (by simp)) ?_ .absent ?_ spelled
    · simpa using described
    · simpa using ruled
  exact single

/-- Texts with one reading each, read again, are read as before. -/
theorem map_snd_eq_of_means {parts others : List (List Char × Condition)}
    (means : ∀ part ∈ parts, Means part.1 part.2) (each : ∀ part ∈ others, Reads part.1 part.2)
    (same : parts.map Prod.fst = others.map Prod.fst) :
    parts.map Prod.snd = others.map Prod.snd := by
  induction parts generalizing others with
  | nil =>
      cases others with
      | nil => rfl
      | cons other more => cases same
  | cons part rest ih =>
      cases others with
      | nil => cases same
      | cons other more =>
          obtain ⟨text, texts⟩ := List.cons.inj same
          have reads : Reads part.1 other.2 := by
            rw [text]
            exact each other List.mem_cons_self
          have meaning := (means part List.mem_cons_self other.2).mp reads
          have meanings := ih (fun part member => means part (List.mem_cons_of_mem _ member))
            (fun part member => each part (List.mem_cons_of_mem _ member)) texts
          rw [List.map_cons, List.map_cons, meaning, meanings]

/-- **Conjunctions do not mix.** Filters with one reading each, put together, are read as the
conjunction of these readings and as nothing else. -/
theorem Means.all {parts : List (List Char × Condition)} (filled : parts ≠ [])
    (means : ∀ part ∈ parts, Means part.1 part.2) :
    Means (wrap ('&' :: parts.flatMap Prod.fst)) (.all (parts.map Prod.snd)) := by
  have first : ∀ part ∈ parts, Reads part.1 part.2 := fun part member => (means part member).reads
  intro other
  constructor
  · intro reads
    generalize whole : wrap ('&' :: parts.flatMap Prod.fst) = text at reads
    cases reads with
    | @all others _ each =>
        have joined : (parts.map Prod.fst).flatten = (others.map Prod.fst).flatten :=
          (List.cons.inj (wrap_injective whole)).2
        have texts : parts.map Prod.fst = others.map Prod.fst := by
          refine Closed.flatten_inj ?_ ?_ joined
          · exact List.forall_mem_map.mpr fun part member => (first part member).closed
          · exact List.forall_mem_map.mpr fun part member => (each part member).closed
        rw [map_snd_eq_of_means means each texts]
    | any _ _ => cases wrap_injective whole
    | not _ => cases wrap_injective whole
    | item single => exact (single.ne_cons (by decide) _ (wrap_injective whole).symm).elim
  · rintro rfl
    exact .all filled first

end SpnegoRealm.Ldap
