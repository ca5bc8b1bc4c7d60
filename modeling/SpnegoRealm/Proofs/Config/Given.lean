import SpnegoRealm.Proofs.Config.Options

/-! # What a file and an environment give

A variable sets an option (`SpnegoRealm.Config.Leaf`) if it assigns to its path; the name of such a
variable can be written in any case (`SpnegoRealm.Settings.Variable.sets_of_name`). Where the
variables of an environment set different options, a configuration is loaded if and only if it is
the one that the fields of the file and the assigned values give
(`SpnegoRealm.Config.load?_eq_some_iff`). Of the environment, this asks for nothing but the value
at each path.
-/

namespace SpnegoRealm

open Settings (Value Variable assignments inGroup)
open Settings.Format (loaded)
open Settings.Value (laidOver?)

namespace Config

/-! ## Options and the variables for them -/

/-- An option of a configuration: one of its own, or one of its directory. -/
inductive Leaf where
  | top (key : Key)
  | ldap (key : LdapConfig.Key)

namespace Leaf

/-- The path to an option. -/
def path : Leaf → List String
  | top key => [key.name]
  | ldap key => [directoryName, key.name]

/-- The name of the variable for an option. -/
def variableName (leaf : Leaf) : String :=
  "KERBEROS_REALM__" ++ String.intercalate "__" leaf.path

/-- What an option contains. -/
def Content : Leaf → Type
  | top key => key.Content
  | ldap key => key.Content

/-- The content that a typed value has for an option. -/
def read? : (leaf : Leaf) → Value → Option leaf.Content
  | top key => key.read?
  | ldap key => key.read?

/-- Put a content in place of that of an option. -/
def put : (leaf : Leaf) → leaf.Content → Config → Config
  | top key, content, config => key.put content config
  | ldap key, content, config => { config with ldap := key.put content config.ldap }

private theorem shallow_path (leaf : Leaf) : Value.Shallow directoryName leaf.path := by
  cases leaf with
  | top key => exact .inl ⟨key.name, key.name_ne_directoryName, rfl⟩
  | ldap key => exact .inr ⟨key.name, rfl⟩

end Leaf

end Config

namespace Settings.Variable

/-- A variable sets an option. -/
def Sets (entry : Variable) (leaf : Config.Leaf) : Prop := entry.path? = some leaf.path

/-- The variable for an option sets it, in any case of the letters of its name. -/
theorem sets_of_name {entry : Variable} {leaf : Config.Leaf}
    (named : Text.eqIgnoringAsciiCase entry.name leaf.variableName = true) : entry.Sets leaf := by
  have same : entry.path? = path? ⟨leaf.variableName, ""⟩ := path?_eq_of_name named
  unfold Sets
  rw [same]
  rcases leaf with key | key <;> cases key <;> decide +kernel

end Settings.Variable

namespace Config

/-- The variables of an environment set options, each of them a different one, or nothing. -/
structure LeavesApart (environment : List Variable) : Prop where
  leaves : ∀ entry ∈ environment, ∀ path ∈ entry.path?, ∃ leaf : Leaf, leaf.path = path
  apart : (environment.filterMap Variable.path?).Nodup

namespace LeavesApart

variable {environment others : List Variable} {entry : Variable} {leaf : Leaf}

/-- An environment without variables sets nothing twice. -/
theorem nil : LeavesApart [] where
  leaves entry member := by cases member
  apart := .nil

private theorem shallow (apart : LeavesApart environment) :
    ∀ row ∈ assignments environment, Value.Shallow directoryName row.1 := by
  intro row member
  have path : row.1 ∈ environment.filterMap Variable.path? := by
    rw [← Settings.map_fst_assignments]
    exact List.mem_map.mpr ⟨row, member, rfl⟩
  obtain ⟨entry, listed, set⟩ := List.mem_filterMap.mp path
  obtain ⟨leaf, same⟩ := apart.leaves entry listed row.1 set
  exact same ▸ leaf.shallow_path

/-- Where variables are apart, an environment assigns to each path once. -/
theorem distinct (apart : LeavesApart environment) :
    ((assignments environment).map Prod.fst).Nodup := by
  rw [Settings.map_fst_assignments]
  exact apart.apart

/-- The order of the variables makes no difference to whether they are apart. -/
theorem perm (apart : LeavesApart environment) (same : environment.Perm others) :
    LeavesApart others where
  leaves entry member := apart.leaves entry (same.mem_iff.mpr member)
  apart := (same.filterMap _).nodup_iff.mp apart.apart

/-- One more variable is apart from the others if it sets an option that none of them sets. -/
theorem cons (apart : LeavesApart environment) (sets : entry.Sets leaf)
    (fresh : ∀ other ∈ environment, ¬ other.Sets leaf) : LeavesApart (entry :: environment) := by
  refine ⟨fun other member path set => ?_, ?_⟩
  · rcases List.mem_cons.mp member with rfl | present
    · exact ⟨leaf, Option.some_inj.mp (sets.symm.trans set)⟩
    · exact apart.leaves other present path set
  · rw [List.filterMap_cons_some sets, List.nodup_cons]
    refine ⟨fun again => ?_, apart.apart⟩
    obtain ⟨other, present, set⟩ := List.mem_filterMap.mp again
    exact fresh other present set

end LeavesApart

/-! ## Configurations that are loaded -/

variable {file : Option String} {environment : List Variable} {config : Config}
  {fields : List (String × Value)} {inside : String → Option Value} {ldap : LdapConfig}

/-- The value that an environment assigns to a path. -/
def assigned (environment : List Variable) (path : List String) : Option Value :=
  (assignments environment).lookup path

/-- The settings of a file are a table. -/
theorem exists_fileSettings?_eq {settings : Value} (read : fileSettings? file = some settings) :
    ∃ fields, settings = .table fields := by
  cases file with
  | none => exact ⟨[], (Option.some_inj.mp read).symm⟩
  | some text =>
      change Settings.Document.read? text = some settings at read
      unfold Settings.Document.read? at read
      split at read
      next content _ =>
        cases node : content.getD .absent with
        | scalar text style tag =>
            rw [node] at read
            exact ⟨[], (Option.some_inj.mp (Option.ite_none_right_eq_some.mp read).2).symm⟩
        | sequence items tag =>
            rw [node] at read
            cases read
        | mapping pairs tag =>
            rw [node] at read
            obtain ⟨fields, -, made⟩ := Option.map_eq_some_iff.mp read
            exact ⟨_, made.symm⟩
      next => cases read

/-- What the options of the directory are. If no value is assigned to one of them, they are those of
the file. Otherwise the values lie over the fields of a table in the file. -/
inductive GivenLdap (fields : List (String × Value)) (inside : String → Option Value)
    (ldap : LdapConfig) : Prop where
  | file (unassigned : ∀ name, inside name = none)
      (read : (fields.lookup directoryName).elim (some {}) (readLdap? loaded) = some ldap)
  | environment {name : String} (touched : (inside name).isSome)
      (gives : LdapConfig.options.Gives
        (fun name => laidOver? (inGroup directoryName fields name) (inside name)) ldap)

/-- What a configuration is under the fields of a file and the values that are assigned to paths. -/
structure Given (fields : List (String × Value)) (values : List String → Option Value)
    (config : Config) : Prop where
  top : options.Gives (fun name => laidOver? (fields.lookup name) (values [name])) config
  directory : GivenLdap fields (fun name => values [directoryName, name]) config.ldap

/-- The directory that is given under assigned values is the one that is read of the merged fields.
-/
theorem givenLdap_iff {assigned : List (List String × Value)} {merged : List (String × Value)}
    (merges : Settings.Merges directoryName fields assigned merged) :
    GivenLdap fields (fun name => assigned.lookup [directoryName, name]) ldap ↔
      (merged.lookup directoryName).elim (some {}) (readLdap? loaded) = some ldap := by
  constructor
  · rintro (⟨unassigned, read⟩ | ⟨touched, gives⟩)
    · rw [merges.untouched unassigned]
      exact read
    · obtain ⟨inner, present, lies⟩ := merges.touched _ touched
      rw [present, Option.elim_some, LdapConfig.readLdap?_table_iff, funext lies]
      exact gives
  · intro read
    by_cases unassigned : ∀ name, assigned.lookup [directoryName, name] = none
    · rw [merges.untouched unassigned] at read
      exact .file unassigned read
    · obtain ⟨name, touched⟩ := not_forall.mp unassigned
      replace touched := Option.ne_none_iff_isSome.mp touched
      obtain ⟨inner, present, lies⟩ := merges.touched name touched
      rw [present, Option.elim_some, LdapConfig.readLdap?_table_iff, funext lies] at read
      exact .environment touched read

/-- **Files and environments give configurations.** -/
theorem load?_eq_some_iff (apart : LeavesApart environment) :
    load? file environment = some config ↔
      ∃ fields, fileSettings? file = some (.table fields) ∧
        Given fields (assigned environment) config := by
  have given_iff (fields : List (String × Value)) :
      read? loaded ((Value.table fields).laidOver (Settings.ofEnvironment environment)) =
        some config ↔ Given fields (assigned environment) config := by
    obtain ⟨merged, laid, merges⟩ := Settings.exists_merges apart.shallow apart.distinct fields
    rw [laid, read?_table_iff, ← givenLdap_iff merges]
    constructor
    · rintro ⟨top, directory⟩
      exact ⟨gives_of_eq_of_ne top fun name apart => (merges.top name apart).symm, directory⟩
    · rintro ⟨top, directory⟩
      exact ⟨gives_of_eq_of_ne top merges.top, directory⟩
  unfold load?
  rw [Option.bind_eq_bind, Option.bind_eq_some_iff]
  constructor
  · rintro ⟨settings, read, made⟩
    obtain ⟨fields, rfl⟩ := exists_fileSettings?_eq read
    exact ⟨fields, read, (given_iff fields).mp made⟩
  · rintro ⟨fields, read, given⟩
    exact ⟨.table fields, read, (given_iff fields).mpr given⟩

end Config

end SpnegoRealm
