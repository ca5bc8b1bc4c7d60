import SpnegoRealm.Proofs.Config.Given

/-! # Variables that override options

One more variable for an option that no variable sets yet changes the value at one path, and so it
changes this option and no other (`SpnegoRealm.Config.load?_cons`). There is one exception: a file
can give the options of the directory as a list, in their order, and a list cannot be merged with
an option from the environment. Then the list gives way as a whole
(`SpnegoRealm.Config.listed_directory_gives_way`). **Variables set their own option** is
`SpnegoRealm.Config.variables_set_their_option`.
-/

namespace SpnegoRealm.Config

open Settings (Value Variable assignments inGroup)
open Settings.Format (loaded)
open Settings.Value (laidOver?)

variable {file : Option String} {environment : List Variable} {config : Config}
  {fields : List (String × Value)} {inside : String → Option Value} {ldap : LdapConfig}

/-! ## One more variable -/

section Put

variable {values : List String → Option Value} {value : Value}

/-- A value that lies over the fields of the file and the values of other variables. -/
theorem GivenLdap.of_gives {key : LdapConfig.Key} {content : key.Content}
    (gives : LdapConfig.options.Gives
      (fun name => laidOver? (inGroup directoryName fields name) (inside name)) ldap)
    (read : key.read? value = some content) :
    GivenLdap fields (Function.update inside key.name (some value)) (key.put content ldap) := by
  have touched : (Function.update inside key.name (some value) key.name).isSome := by
    rw [Function.update_self]
    rfl
  exact .environment touched (gives.assign read)

/-- The options that a file gives are those of its table or of its list. -/
theorem list_or_gives_of_read
    (read : (fields.lookup directoryName).elim (some {}) (readLdap? loaded) = some ldap) :
    (∃ items, fields.lookup directoryName = some (.list items)) ∨
      LdapConfig.options.Gives (inGroup directoryName fields) ldap := by
  unfold inGroup
  cases held : fields.lookup directoryName with
  | none =>
      rw [held] at read
      exact .inr (Option.some_inj.mp read ▸ LdapConfig.options.gives_default)
  | some value =>
      rw [held] at read
      cases value with
      | list items => exact .inl ⟨items, rfl⟩
      | table inner => exact .inr (LdapConfig.readLdap?_table_iff.mp read)
      | _ => cases read

private theorem laidOver?_none_of_unassigned (unassigned : ∀ name, inside name = none) :
    (fun name => laidOver? (inGroup directoryName fields name) (inside name)) =
      inGroup directoryName fields := by
  funext name
  rw [unassigned]
  rfl

/-- A value for an option of the directory changes no other option, unless the file gives the
options as a list and no other variable sets one of them. -/
theorem GivenLdap.put {key : LdapConfig.Key} {content : key.Content}
    (given : GivenLdap fields inside ldap) (read : key.read? value = some content)
    (stays : (∃ items, fields.lookup directoryName = some (.list items)) →
      ∃ name, inside name ≠ none) :
    GivenLdap fields (Function.update inside key.name (some value)) (key.put content ldap) := by
  cases given with
  | environment _ gives => exact .of_gives gives read
  | file unassigned given =>
      rcases list_or_gives_of_read given with list | gives
      · -- The list has been replaced by the value of another variable.
        obtain ⟨name, other⟩ := stays list
        exact (other (unassigned name)).elim
      · rw [← laidOver?_none_of_unassigned unassigned] at gives
        exact .of_gives gives read

/-- A value for an option takes the place of a list with all the options of the directory. -/
theorem GivenLdap.put_over_list {key : LdapConfig.Key} {content : key.Content} {items : List Value}
    (list : fields.lookup directoryName = some (.list items))
    (unassigned : ∀ name, inside name = none) (read : key.read? value = some content) :
    GivenLdap fields (Function.update inside key.name (some value)) (key.put content {}) := by
  refine .of_gives ?_ read
  rw [laidOver?_none_of_unassigned unassigned]
  unfold inGroup
  rw [list]
  exact LdapConfig.options.gives_default

/-- A value for an option besides those of the directory changes no other option. -/
theorem Given.put_top {key : Key} {content : key.Content} (given : Given fields values config)
    (read : key.read? value = some content) :
    Given fields (Function.update values [key.name] (some value)) (key.put content config) := by
  have there (name : String) : Function.update values [key.name] (some value) [name] =
      Function.update (fun name => values [name]) key.name (some value) name := by
    simp only [Function.update_apply, List.cons.injEq, and_true]
  have elsewhere (name : String) : Function.update values [key.name] (some value)
      [directoryName, name] = values [directoryName, name] := Function.update_of_ne (by simp) _ _
  refine ⟨?top, ?directory⟩
  case top =>
    simp only [there]
    exact given.top.assign read
  case directory =>
    simp only [elsewhere, Key.ldap_put]
    exact given.directory

/-- A value for an option of the directory changes the options of the directory only. -/
theorem Given.put_ldap {name : String} (given : Given fields values config)
    (changed : GivenLdap fields
      (Function.update (fun name => values [directoryName, name]) name (some value)) ldap) :
    Given fields (Function.update values [directoryName, name] (some value))
      { config with ldap := ldap } := by
  have there (other : String) : Function.update values [directoryName, name] (some value)
      [directoryName, other] =
        Function.update (fun name => values [directoryName, name]) name (some value) other := by
    simp only [Function.update_apply, List.cons.injEq, true_and, and_true]
  have elsewhere (other : String) : Function.update values [directoryName, name] (some value)
      [other] = values [other] := Function.update_of_ne (by simp) _ _
  refine ⟨?top, ?directory⟩
  case top =>
    simp only [elsewhere]
    exact gives_with_ldap given.top ldap
  case directory =>
    simp only [there]
    exact changed

end Put

/-- A file gives the options of the directory as a list. -/
def ListsDirectory (file : Option String) : Prop :=
  ∃ fields items, fileSettings? file = some (.table fields) ∧
    fields.lookup directoryName = some (.list items)

/-- A list of the options of the directory gives way to a value for one of them, if this is the
first one that a variable sets. -/
def GivesWay (file : Option String) (environment : List Variable) (leaf : Leaf) : Prop :=
  (∃ key, leaf = .ldap key) ∧ ListsDirectory file ∧
    ∀ entry ∈ environment, ∀ key, ¬ entry.Sets (.ldap key)

variable {others : List Variable} {entry : Variable} {leaf : Leaf}

private theorem assigned_perm (apart : LeavesApart environment) (same : environment.Perm others) :
    assigned environment = assigned others :=
  funext (Settings.lookup_eq_of_perm apart.distinct (same.filterMap _))

/-- One more variable assigns its value to its path, and the others as before. -/
theorem assigned_cons (sets : entry.Sets leaf) : assigned (entry :: environment) =
    Function.update (assigned environment) leaf.path (some (Settings.Inline.read entry.value)) := by
  have assignment : entry.assignment? = some (leaf.path, Settings.Inline.read entry.value) := by
    unfold Variable.assignment?
    rw [sets]
    rfl
  funext path
  unfold assigned assignments
  rw [List.filterMap_cons_some assignment, Settings.lookup_cons_eq_ite, Function.update_apply]

/-- Variables without the marker assign nothing. -/
theorem assignments_append_of_not_marked {strangers : List Variable}
    (unmarked : ∀ entry ∈ strangers, ¬ entry.Marked) (environment : List Variable) :
    assignments (strangers ++ environment) = assignments environment := by
  have nothing : strangers.filterMap Variable.assignment? = [] := by
    refine List.filterMap_eq_nil_iff.mpr fun entry member => ?_
    unfold Variable.assignment?
    rw [Variable.path?_of_not_marked (unmarked entry member)]
    rfl
  unfold assignments
  rw [List.filterMap_append, nothing, List.nil_append]

private theorem LeavesApart.append_of_not_marked {strangers : List Variable}
    (apart : LeavesApart environment) (unmarked : ∀ entry ∈ strangers, ¬ entry.Marked) :
    LeavesApart (strangers ++ environment) := by
  refine ⟨fun entry member path set => ?_, ?_⟩
  · rcases List.mem_append.mp member with stranger | present
    · rw [Variable.path?_of_not_marked (unmarked entry stranger)] at set
      cases set
    · exact apart.leaves entry present path set
  · rw [← Settings.map_fst_assignments, assignments_append_of_not_marked unmarked,
      Settings.map_fst_assignments]
    exact apart.apart

/-- A value is assigned inside of the directory if and only if a variable sets one of its options.
-/
theorem exists_assigned_inside_iff (apart : LeavesApart environment) :
    (∃ name, assigned environment [directoryName, name] ≠ none) ↔
      ∃ entry ∈ environment, ∃ key, entry.Sets (.ldap key) := by
  have set_iff (name : String) : assigned environment [directoryName, name] ≠ none ↔
      [directoryName, name] ∈ environment.filterMap Variable.path? := by
    rw [← Settings.map_fst_assignments, ← Settings.lookup_isSome_iff,
      Option.isSome_iff_ne_none]
    rfl
  simp only [set_iff, List.mem_filterMap]
  constructor
  · rintro ⟨name, entry, member, set⟩
    obtain ⟨leaf, same⟩ := apart.leaves entry member _ set
    cases leaf with
    | top key => simp [Leaf.path] at same
    | ldap key => exact ⟨entry, member, key, set.trans (congrArg some same.symm)⟩
  · rintro ⟨entry, member, key, set⟩
    exact ⟨key.name, entry, member, set⟩

/-- The order of the variables makes no difference. -/
theorem load?_perm (apart : LeavesApart environment) (same : environment.Perm others) :
    load? file environment = load? file others := by
  refine Option.ext fun config => ?_
  rw [load?_eq_some_iff apart, load?_eq_some_iff (apart.perm same), assigned_perm apart same]

/-- Variables without the marker change nothing. -/
theorem load?_append_of_not_marked {strangers : List Variable} (apart : LeavesApart environment)
    (unmarked : ∀ entry ∈ strangers, ¬ entry.Marked) :
    load? file (strangers ++ environment) = load? file environment := by
  refine Option.ext fun config => ?_
  rw [load?_eq_some_iff (apart.append_of_not_marked unmarked), load?_eq_some_iff apart]
  unfold assigned
  rw [assignments_append_of_not_marked unmarked]

section Cons

variable {content : leaf.Content}

/-- A variable for an option that no other variable sets changes this option only. -/
theorem load?_cons (apart : LeavesApart environment) (loaded : load? file environment = some config)
    (sets : entry.Sets leaf) (fresh : ∀ other ∈ environment, ¬ other.Sets leaf)
    (read : leaf.read? (Settings.Inline.read entry.value) = some content)
    (stays : ¬ GivesWay file environment leaf) :
    load? file (entry :: environment) = some (leaf.put content config) := by
  obtain ⟨fields, settings, given⟩ := (load?_eq_some_iff apart).mp loaded
  refine (load?_eq_some_iff (apart.cons sets fresh)).mpr ⟨fields, settings, ?_⟩
  rw [assigned_cons sets]
  cases leaf with
  | top key => exact given.put_top read
  | ldap key =>
      refine given.put_ldap (given.directory.put read fun ⟨items, list⟩ => ?_)
      refine (exists_assigned_inside_iff apart).mpr (by_contra fun unset => stays ?_)
      exact ⟨⟨key, rfl⟩, ⟨fields, items, settings, list⟩,
        fun other member key set => unset ⟨other, member, key, set⟩⟩

/-- The first variable for an option of the directory, where the file has a list: the other options
of the directory take their defaults. -/
theorem load?_cons_of_givesWay (apart : LeavesApart environment)
    (loaded : load? file environment = some config) (sets : entry.Sets leaf)
    (fresh : ∀ other ∈ environment, ¬ other.Sets leaf)
    (read : leaf.read? (Settings.Inline.read entry.value) = some content)
    (gives : GivesWay file environment leaf) :
    load? file (entry :: environment) = some (leaf.put content { config with ldap := {} }) := by
  obtain ⟨⟨key, rfl⟩, ⟨fields, items, settings, list⟩, unset⟩ := gives
  obtain ⟨fields', settings', given⟩ := (load?_eq_some_iff apart).mp loaded
  obtain rfl := Settings.Value.table.inj (Option.some_inj.mp (settings.symm.trans settings'))
  refine (load?_eq_some_iff (apart.cons sets fresh)).mpr ⟨fields, settings, ?_⟩
  rw [assigned_cons sets]
  refine given.put_ldap (.put_over_list list (fun name => ?_) read)
  by_contra present
  obtain ⟨entry, member, key, set⟩ := (exists_assigned_inside_iff apart).mp ⟨name, present⟩
  exact unset entry member key set

end Cons

/-- **Variables set their own option.** Suppose that the variables of an environment set different
options and that a configuration is loaded. Then the order of the variables makes no difference,
and neither do variables without the marker. One more variable for an option that no variable sets
yet changes this option only: it has the content of the variable, whatever the file gives. The
exception is the first variable for an option of the directory if the file gives the options of the
directory as a list: then the other options of the directory take their defaults. The name of a
variable for an option can be written in any case. -/
theorem variables_set_their_option {file : Option String} {environment : List Variable}
    {config : Config} (apart : LeavesApart environment)
    (loaded : load? file environment = some config) :
    (∀ others, environment.Perm others → load? file others = some config) ∧
    (∀ strangers others, (∀ entry ∈ strangers, ¬ entry.Marked) →
      (strangers ++ environment).Perm others → load? file others = some config) ∧
    (∀ (entry : Variable) (leaf : Leaf),
      Text.eqIgnoringAsciiCase entry.name leaf.variableName = true → entry.Sets leaf) ∧
    ∀ (entry : Variable) (leaf : Leaf) (content : leaf.Content) (others : List Variable),
      entry.Sets leaf → (∀ other ∈ environment, ¬ other.Sets leaf) →
      leaf.read? (Settings.Inline.read entry.value) = some content →
      (entry :: environment).Perm others →
        (¬ GivesWay file environment leaf → load? file others = some (leaf.put content config)) ∧
        (GivesWay file environment leaf →
          load? file others = some (leaf.put content { config with ldap := {} })) := by
  refine ⟨fun others same => ?order, fun strangers others unmarked same => ?strangers,
    fun entry leaf named => Variable.sets_of_name named,
    fun entry leaf content others sets fresh read same => ⟨fun stays => ?one, fun gives => ?list⟩⟩
  case order => exact (load?_perm apart same).symm.trans loaded
  case strangers =>
    calc load? file others
        = load? file (strangers ++ environment) :=
          (load?_perm (apart.append_of_not_marked unmarked) same).symm
      _ = load? file environment := load?_append_of_not_marked apart unmarked
      _ = some config := loaded
  case one =>
    calc load? file others
        = load? file (entry :: environment) := (load?_perm (apart.cons sets fresh) same).symm
      _ = some (leaf.put content config) := load?_cons apart loaded sets fresh read stays
  case list =>
    calc load? file others
        = load? file (entry :: environment) := (load?_perm (apart.cons sets fresh) same).symm
      _ = some (leaf.put content { config with ldap := {} }) :=
          load?_cons_of_givesWay apart loaded sets fresh read gives

/-- A new place of the directory keeps the domain of another variable and what the file says of
certificates. -/
theorem place_beside_domain :
    let domain : Variable := ⟨"KERBEROS_REALM__LDAP__DOMAIN", "corp.example.com"⟩
    let place : Variable := ⟨"kerberos_Realm__LDAP__URL", "ldap://b:389"⟩
    let text := "ldap:\n  url: ldap://a:389\n  verify_certificates: false\n"
    let before : Config := { ldap := {
      url := "ldap://a:389", domain := "corp.example.com", verifyCertificates := false } }
    LeavesApart [domain] ∧ load? (some text) [domain] = some before ∧
      load? (some text) [domain, place] =
        some { before with ldap := { before.ldap with url := "ldap://b:389" } } := by
  intro domain place text before
  have names : domain.Sets (.ldap .domain) := Variable.sets_of_name (by decide)
  have other : ¬ domain.Sets (.ldap .url) := by
    unfold Variable.Sets
    rw [names]
    decide
  have apart : LeavesApart [domain] := LeavesApart.nil.cons names (by simp)
  have loaded : load? (some text) [domain] = some before := by decide +kernel
  have kept : ¬ GivesWay (some text) [domain] (.ldap .url) := fun gives =>
    gives.2.2 domain (List.mem_singleton_self domain) .domain names
  have read : (Settings.Inline.read place.value).text? = some "ldap://b:389" := by decide +kernel
  obtain ⟨-, -, named, one⟩ := variables_set_their_option apart loaded
  refine ⟨apart, loaded, (one place (.ldap .url) "ldap://b:389" [domain, place]
    (named place _ (by decide)) ?_ read (.swap domain place [])).1 kept⟩
  intro entry member
  exact List.mem_singleton.mp member ▸ other

/-- If the file gives the options of the directory as a list, a new place of the directory loses the
domain. -/
theorem listed_directory_gives_way :
    let place : Variable := ⟨"KERBEROS_REALM__LDAP__URL", "ldap://b:389"⟩
    let text := "ldap: ['ldap://a:389', corp.example.com]\n"
    let before : Config := { ldap := { url := "ldap://a:389", domain := "corp.example.com" } }
    LeavesApart [] ∧ place.Sets (.ldap .url) ∧ load? (some text) [] = some before ∧
      load? (some text) [place] = some { ldap := { url := "ldap://b:389" } } ∧
      load? (some text) [place] ≠
        some { before with ldap := { before.ldap with url := "ldap://b:389" } } := by
  refine ⟨.nil, Variable.sets_of_name (by decide), by decide +kernel, by decide +kernel, ?_⟩
  decide +kernel

end SpnegoRealm.Config
