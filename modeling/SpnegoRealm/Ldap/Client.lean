import SpnegoRealm.Config
import SpnegoRealm.Ldap.Entry
import SpnegoRealm.Ldap.Filter

/-! # The directory client

Every question opens a connection of its own, binds, searches once and unbinds. The bind is
anonymous unless both a name and a password are configured. A connection that cannot be opened
or bound is a connection error; a search that fails is a query error, except that an object
whose name does not exist is simply absent.
-/

namespace SpnegoRealm.Ldap

/-- A client of a server. -/
structure Client where
  config : LdapConfig
  server : Server

/-- The answer to a question, and the requests that were sent for it. -/
structure Call (α : Type) where
  answer : Except DirectoryError α
  sent : List Request

namespace Client

/-- The name and the password of the bind; both are empty for an anonymous one. -/
def credentials (client : Client) : String × String :=
  match client.config.bindDn, client.config.bindPassword with
  | some dn, some password => (dn, password)
  | _, _ => ("", "")

/-- Open a connection and bind. -/
def connect (client : Client) : Call Unit :=
  match client.server.refusal with
  | some reason => ⟨.error (.connection (client.config.url ++ ": " ++ reason)), []⟩
  | none =>
    let (dn, password) := client.credentials
    let sent := [Request.bind dn password]
    match client.server.bind dn password with
    | none => ⟨.error (.connection "bind failed: connection closed"), sent⟩
    | some result =>
      if result.isSuccess then ⟨.ok (), sent⟩
      else ⟨.error (.connection ("bind rejected: " ++ result.message)), sent⟩

/-- Search once on a fresh connection and unbind. -/
def search (client : Client) (search : Search) : Call (List RawEntry × Result) :=
  match client.connect with
  | ⟨.error error, sent⟩ => ⟨.error error, sent⟩
  | ⟨.ok _, sent⟩ =>
    let sent := sent ++ [.search search, .unbind]
    match client.server.search search with
    | none => ⟨.error (.query "connection closed"), sent⟩
    | some reply => ⟨.ok reply, sent⟩

/-- The entries of a search that succeeded. -/
def entriesOf (reply : List RawEntry × Result) : Except DirectoryError (List RawEntry) :=
  if reply.2.isSuccess then .ok reply.1 else .error (.query reply.2.message)

/-- The attributes that are read of an object. -/
def objectAttributeNames : List String :=
  ["objectClass", "userPrincipalName", "memberOf", "objectSid", "distinguishedName"]

/-- The search for one object. -/
def objectSearch (dn : String) : Search :=
  ⟨dn, .object, Filter.anyObject, objectAttributeNames⟩

/-- A search of the whole domain. -/
def domainSearch (client : Client) (filter : String) (attributes : List String) : Search :=
  ⟨searchBase client.config.domain, .subtree, filter, attributes⟩

/-- The search that answers a question. -/
def searchFor (client : Client) : Directory.Request → Search
  | .objectAttributes dn => objectSearch dn
  | .memberGroups group => client.domainSearch (Filter.memberGroups group) ["distinguishedName"]
  | .userGroups account => client.domainSearch (Filter.userAccount account) ["memberOf"]
  | .isMember group account =>
    client.domainSearch (Filter.transitiveMembership group account) ["1.1"]

/-- The requests that are sent for a question. -/
def requestsFor (client : Client) (request : Directory.Request) : List Request :=
  (client.search (client.searchFor request)).sent

/-- The reply to the search for a question. -/
def ask (client : Client) (request : Directory.Request) :
    Except DirectoryError (List RawEntry × Result) :=
  (client.search (client.searchFor request)).answer

/-- The texts, each once, in order of first occurrence. -/
def distinct : List String → List String → List String
  | seen, [] => seen
  | seen, text :: rest =>
    if seen.contains text then distinct seen rest else distinct (seen ++ [text]) rest

/-- The object with a name, if there is one. -/
def objectAttributes (client : Client) (dn : String) :
    Except DirectoryError (Option Directory.Entry) := do
  let reply ← client.ask (.objectAttributes dn)
  if reply.2.code = Result.noSuchObjectCode then
    return none
  else
    let entries ← entriesOf reply
    return entries.head?.map RawEntry.toEntry

/-- The groups that are members of a group. -/
def memberGroups (client : Client) (group : String) : Except DirectoryError (List String) := do
  let entries ← entriesOf (← client.ask (.memberGroups group))
  return entries.map RawEntry.distinguishedName

/-- The lowercased names of the groups that an account is a direct member of. -/
def userGroups (client : Client) (account : String) : Except DirectoryError (List String) := do
  let entries ← entriesOf (← client.ask (.userGroups account))
  match entries with
  | [] => return []
  | user :: _ => return distinct [] ((user.textValues "memberOf").map Text.lowercase)

/-- Whether an account belongs to a group through any chain of groups. -/
def isMember (client : Client) (group account : String) : Except DirectoryError Bool := do
  let entries ← entriesOf (← client.ask (.isMember group account))
  return !entries.isEmpty

/-- The answers of a client. -/
def toDirectory (client : Client) : Directory where
  objectAttributes := client.objectAttributes
  memberGroups := client.memberGroups
  userGroups := client.userGroups
  isMember := client.isMember

end Client

end SpnegoRealm.Ldap
