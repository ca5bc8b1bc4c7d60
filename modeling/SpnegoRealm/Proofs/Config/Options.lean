import Mathlib.Logic.Function.Basic
import SpnegoRealm.Config.Load
import SpnegoRealm.Proofs.Settings.Environment

/-! # The options of a configuration

The options of a record (`SpnegoRealm.Options`) have a name, a kind of content, and a reading of
typed values each. What a record is under some values for the names of its options is
`SpnegoRealm.Options.Gives`: an option has the content that is read of the value under its name, or
else its default. So a new value for one option changes that option and no other
(`SpnegoRealm.Options.Gives.assign`). A configuration has options of its own
(`SpnegoRealm.Config.options`) and those of its directory (`SpnegoRealm.LdapConfig.options`), and a
table is read if and only if it gives these (`SpnegoRealm.LdapConfig.readLdap?_table_iff`,
`SpnegoRealm.Config.read?_table_iff`).
-/

namespace SpnegoRealm

open Settings (Value Format)

/-- The format of the settings that are loaded. -/
abbrev Settings.Format.loaded : Format Value := Format.typed true

open Settings.Format (loaded)
open Settings.Value (laidOver? laidOver?_of_ne_table)

private theorem Settings.Format.field?_eq {α β : Type} (fields : List (String × α)) (name : String)
    (read : α → Option β) (default : β) :
    Format.field? fields name read default = (fields.lookup name).elim (some default) read := by
  unfold field?
  cases fields.lookup name with
  | none => rfl
  | some value => rfl

/-- A table is a record if all its names are known. -/
theorem Settings.Format.record?_table_eq_some_iff {names : List String}
    {fields held : List (String × Value)} : loaded.record? names (.table fields) = some held ↔
      held = fields ∧ ∀ name, (fields.lookup name).isSome → name ∈ names := by
  have known : (fields.all fun field => names.contains field.1) = true ↔
      ∀ name, (fields.lookup name).isSome → name ∈ names := by
    simp only [List.all_eq_true, List.contains_iff_mem, Settings.lookup_isSome_iff]
    exact List.forall_mem_map.symm
  unfold record?
  change (if (fields.all fun field => names.contains field.1) = true then some fields else none) =
    some held ↔ _
  rw [← known, Option.ite_none_right_eq_some, Option.some_inj, eq_comm (a := fields), and_comm]

/-! ## Options of records -/

/-- The options of a record. No two have the same name, none is read of a table, and to put a
content in place of that of one option leaves the others as they are. -/
structure Options (Record : Type) where
  Key : Type
  name : Key → String
  Content : Key → Type
  /-- The content that a typed value has for an option. -/
  read? : (key : Key) → Value → Option (Content key)
  get : (key : Key) → Record → Content key
  put : (key : Key) → Content key → Record → Record
  default : Record
  /-- The names that can stand in a table for the record. -/
  names : List String
  name_injective : Function.Injective name
  name_mem_names : ∀ key, name key ∈ names
  ne_table_of_read? : ∀ key value content, read? key value = some content →
    ∀ fields, value ≠ .table fields
  get_put : ∀ key content record, get key (put key content record) = content
  get_put_of_ne : ∀ key other content record, other ≠ key →
    get other (put key content record) = get other record

namespace Options

variable {Record : Type} {options : Options Record} {held others : String → Option Value}
  {record : Record}

/-- What a record is under some values for names. Names that are not known have no value. -/
structure Gives (options : Options Record) (held : String → Option Value) (record : Record) :
    Prop where
  known : ∀ name, (held name).isSome → name ∈ options.names
  each : ∀ key, (held (options.name key)).elim (some (options.get key options.default))
    (options.read? key) = some (options.get key record)

/-- Where no name has a value, a record is the default one. -/
theorem gives_default (options : Options Record) :
    options.Gives (fun _ => none) options.default where
  known _ present := by cases present
  each _ := rfl

private theorem Gives.congr (gives : options.Gives held record)
    (same : ∀ key, others (options.name key) = held (options.name key))
    (unknown : ∀ name, name ∉ options.names → others name = held name) :
    options.Gives others record := by
  refine ⟨fun name present => by_contra fun missing => ?_, fun key => ?_⟩
  · rw [unknown name missing] at present
    exact missing (gives.known name present)
  · rw [same]
    exact gives.each key

/-- **A new value for one option changes no other.** -/
theorem Gives.assign {earlier later : String → Option Value} {key : options.Key}
    {content : options.Content key} {value : Value}
    (gives : options.Gives (fun name => laidOver? (earlier name) (later name)) record)
    (read : options.read? key value = some content) :
    options.Gives
      (fun name => laidOver? (earlier name)
        (Function.update later (options.name key) (some value) name))
      (options.put key content record) := by
  refine ⟨fun name present => ?_, fun other => ?_⟩
  · by_cases here : name = options.name key
    · exact here ▸ options.name_mem_names key
    · rw [Function.update_of_ne here] at present
      exact gives.known name present
  · by_cases here : other = key
    · subst here
      have noTable := options.ne_table_of_read? other value content read
      rw [Function.update_self, laidOver?_of_ne_table noTable, options.get_put]
      exact read
    · rw [Function.update_of_ne fun same => here (options.name_injective same),
        options.get_put_of_ne key other content record here]
      exact gives.each other

end Options

/-! ## Options of the directory -/

namespace LdapConfig

/-- The options of a directory. -/
inductive Key where
  | url
  | domain
  | bindDn
  | bindPassword
  | verifyCertificates
  | timeout
  deriving DecidableEq

namespace Key

/-- The name of an option. -/
def name : Key → String
  | url => "url"
  | domain => "domain"
  | bindDn => "bind_dn"
  | bindPassword => "bind_password"
  | verifyCertificates => "verify_certificates"
  | timeout => "timeout"

/-- What an option contains. -/
def Content : Key → Type
  | url | domain => String
  | bindDn | bindPassword => Option String
  | verifyCertificates => Bool
  | timeout => Duration

/-- The content that a typed value has for an option. -/
def read? : (key : Key) → Value → Option key.Content
  | url | domain => loaded.text?
  | bindDn | bindPassword => loaded.optional? loaded.text?
  | verifyCertificates => loaded.bool?
  | timeout => Config.duration? loaded

/-- The content of an option. -/
def get : (key : Key) → LdapConfig → key.Content
  | url => LdapConfig.url
  | domain => LdapConfig.domain
  | bindDn => LdapConfig.bindDn
  | bindPassword => LdapConfig.bindPassword
  | verifyCertificates => LdapConfig.verifyCertificates
  | timeout => LdapConfig.timeout

/-- Put a content in place of that of an option. -/
def put : (key : Key) → key.Content → LdapConfig → LdapConfig
  | url, content, config => { config with url := content }
  | domain, content, config => { config with domain := content }
  | bindDn, content, config => { config with bindDn := content }
  | bindPassword, content, config => { config with bindPassword := content }
  | verifyCertificates, content, config => { config with verifyCertificates := content }
  | timeout, content, config => { config with timeout := content }

private theorem name_injective : Function.Injective name := by
  intro key other same
  cases key <;> cases other <;> simp_all [name]

end Key

/-- The options of a directory, as a table can give them. -/
def options : Options LdapConfig where
  Key := Key
  name := Key.name
  Content := Key.Content
  read? := Key.read?
  get := Key.get
  put := Key.put
  default := {}
  names := optionNames
  name_injective := Key.name_injective
  name_mem_names key := by cases key <;> decide
  ne_table_of_read? key value content read fields := by
    rintro rfl
    cases key <;> cases read
  get_put key content config := by cases key <;> rfl
  get_put_of_ne key other content config different := by
    cases key <;> cases other <;> first | rfl | exact (different rfl).elim

/-- A table is read as the record that its fields give. -/
theorem readLdap?_table_iff {fields : List (String × Value)} {config : LdapConfig} :
    Config.readLdap? loaded (.table fields) = some config ↔
      options.Gives (fun name => fields.lookup name) config := by
  unfold Config.readLdap?
  simp only [Option.bind_eq_bind, Option.bind_eq_some_iff, Option.pure_def, Option.some_inj,
    Settings.Format.record?_table_eq_some_iff, Settings.Format.field?_eq]
  constructor
  · rintro ⟨_, ⟨rfl, known⟩, url, one, domain, two, bindDn, three, bindPassword, four,
      verifyCertificates, five, timeout, six, rfl⟩
    refine ⟨known, fun key => ?_⟩
    cases key with
    | url => exact one
    | domain => exact two
    | bindDn => exact three
    | bindPassword => exact four
    | verifyCertificates => exact five
    | timeout => exact six
  · rintro ⟨known, each⟩
    exact ⟨fields, ⟨rfl, known⟩, _, each Key.url, _, each Key.domain, _, each Key.bindDn, _,
      each Key.bindPassword, _, each Key.verifyCertificates, _, each Key.timeout, rfl⟩

end LdapConfig

/-! ## Options of the realm -/

namespace Config

/-- The options of a realm besides those of its directory. -/
inductive Key where
  | acceptorPrincipal
  | acceptorKeytabPath
  | mockMode
  | stripRealm
  | cacheRefreshInterval
  | maxNestedGroupDepth
  | maxNestedGroupWorkers
  | roleMappingPath
  deriving DecidableEq

/-- The name of the group of options of the directory. -/
def directoryName : String := "ldap"

namespace Key

/-- The name of an option. -/
def name : Key → String
  | acceptorPrincipal => "acceptor_principal"
  | acceptorKeytabPath => "acceptor_keytab_path"
  | mockMode => "mock_mode"
  | stripRealm => "strip_realm_from_principal"
  | cacheRefreshInterval => "cache_refresh_interval"
  | maxNestedGroupDepth => "max_nested_group_depth"
  | maxNestedGroupWorkers => "max_nested_group_workers"
  | roleMappingPath => "role_mapping_path"

/-- What an option contains. -/
def Content : Key → Type
  | acceptorPrincipal => Option String
  | acceptorKeytabPath => Option Bytes
  | mockMode | stripRealm => Bool
  | cacheRefreshInterval => Duration
  | maxNestedGroupDepth | maxNestedGroupWorkers => Nat
  | roleMappingPath => Bytes

/-- The content that a typed value has for an option. -/
def read? : (key : Key) → Value → Option key.Content
  | acceptorPrincipal => loaded.optional? loaded.text?
  | acceptorKeytabPath => loaded.optional? (path? loaded)
  | mockMode | stripRealm => loaded.bool?
  | cacheRefreshInterval => duration? loaded
  | maxNestedGroupDepth | maxNestedGroupWorkers => loaded.natural?
  | roleMappingPath => path? loaded

/-- The content of an option. -/
def get : (key : Key) → Config → key.Content
  | acceptorPrincipal => Config.acceptorPrincipal
  | acceptorKeytabPath => Config.acceptorKeytabPath
  | mockMode => Config.mockMode
  | stripRealm => Config.stripRealm
  | cacheRefreshInterval => Config.cacheRefreshInterval
  | maxNestedGroupDepth => Config.maxNestedGroupDepth
  | maxNestedGroupWorkers => Config.maxNestedGroupWorkers
  | roleMappingPath => Config.roleMappingPath

/-- Put a content in place of that of an option. -/
def put : (key : Key) → key.Content → Config → Config
  | acceptorPrincipal, content, config => { config with acceptorPrincipal := content }
  | acceptorKeytabPath, content, config => { config with acceptorKeytabPath := content }
  | mockMode, content, config => { config with mockMode := content }
  | stripRealm, content, config => { config with stripRealm := content }
  | cacheRefreshInterval, content, config => { config with cacheRefreshInterval := content }
  | maxNestedGroupDepth, content, config => { config with maxNestedGroupDepth := content }
  | maxNestedGroupWorkers, content, config => { config with maxNestedGroupWorkers := content }
  | roleMappingPath, content, config => { config with roleMappingPath := content }

private theorem name_injective : Function.Injective name := by
  intro key other same
  cases key <;> cases other <;> simp_all [name]

/-- No option is called like the table of the directory. -/
theorem name_ne_directoryName (key : Key) : key.name ≠ directoryName := by
  cases key <;> decide

/-- An option of the realm leaves the directory as it is. -/
theorem ldap_put (key : Key) (content : key.Content) (config : Config) :
    (key.put content config).ldap = config.ldap := by
  cases key <;> rfl

private theorem get_with_ldap (key : Key) (config : Config) (ldap : LdapConfig) :
    key.get { config with ldap := ldap } = key.get config := by
  cases key <;> rfl

end Key

/-- The options of a realm besides those of its directory, as a table can give them. -/
def options : Options Config where
  Key := Key
  name := Key.name
  Content := Key.Content
  read? := Key.read?
  get := Key.get
  put := Key.put
  default := {}
  names := optionNames
  name_injective := Key.name_injective
  name_mem_names key := by cases key <;> decide
  ne_table_of_read? key value content read fields := by
    rintro rfl
    cases key <;> cases read
  get_put key content config := by cases key <;> rfl
  get_put_of_ne key other content config different := by
    cases key <;> cases other <;> first | rfl | exact (different rfl).elim

private theorem directoryName_mem_names : directoryName ∈ options.names := by decide

/-- The value under the name of the directory has no part in the other options. -/
theorem gives_of_eq_of_ne {held others : String → Option Value} {config : Config}
    (gives : options.Gives held config)
    (same : ∀ name, name ≠ directoryName → others name = held name) :
    options.Gives others config :=
  gives.congr (fun key => same _ (Key.name_ne_directoryName key))
    fun name missing => same name fun here => missing (here ▸ directoryName_mem_names)

/-- What the options give does not depend on the record of the directory. -/
theorem gives_with_ldap {held : String → Option Value} {config : Config}
    (gives : options.Gives held config) (ldap : LdapConfig) :
    options.Gives held { config with ldap := ldap } := by
  refine ⟨gives.known, fun key => (gives.each key).trans ?_⟩
  exact congrArg some (key.get_with_ldap config ldap).symm

/-- A table is read as the record that its fields give, with the directory of the table for it, or
the default one if there is none. -/
theorem read?_table_iff {fields : List (String × Value)} {config : Config} :
    read? loaded (.table fields) = some config ↔
      options.Gives (fun name => fields.lookup name) config ∧
        (fields.lookup directoryName).elim (some {}) (readLdap? loaded) = some config.ldap := by
  unfold read?
  simp only [Option.bind_eq_bind, Option.bind_eq_some_iff, Option.pure_def, Option.some_inj,
    Settings.Format.record?_table_eq_some_iff, Settings.Format.field?_eq]
  constructor
  · rintro ⟨_, ⟨rfl, known⟩, acceptorPrincipal, one, acceptorKeytabPath, two, mockMode, three,
      stripRealm, four, ldap, directory, cacheRefreshInterval, five, maxNestedGroupDepth, six,
      maxNestedGroupWorkers, seven, roleMappingPath, eight, rfl⟩
    refine ⟨⟨known, fun key => ?_⟩, directory⟩
    cases key with
    | acceptorPrincipal => exact one
    | acceptorKeytabPath => exact two
    | mockMode => exact three
    | stripRealm => exact four
    | cacheRefreshInterval => exact five
    | maxNestedGroupDepth => exact six
    | maxNestedGroupWorkers => exact seven
    | roleMappingPath => exact eight
  · rintro ⟨⟨known, each⟩, directory⟩
    exact ⟨fields, ⟨rfl, known⟩, _, each Key.acceptorPrincipal, _, each Key.acceptorKeytabPath, _,
      each Key.mockMode, _, each Key.stripRealm, _, directory, _, each Key.cacheRefreshInterval, _,
      each Key.maxNestedGroupDepth, _, each Key.maxNestedGroupWorkers, _,
      each Key.roleMappingPath, rfl⟩

end Config

end SpnegoRealm
