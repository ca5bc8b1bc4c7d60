/-! # Search bases and filters

A filter is written in parentheses around a condition. In the value of a condition the signs of
the filter language, the backslash and the NUL character are written as a backslash and two
hexadecimal digits; nothing else is changed, so a value cannot end its condition.
-/

namespace SpnegoRealm.Ldap

/-- The base under which a domain is searched: one component for each label that is not
empty. -/
def searchBase (domain : String) : String :=
  let labels := (domain.splitToList (· == '.')).filter (· != "")
  ",".intercalate (labels.map ("DC=" ++ ·))

namespace Filter

/-- A character as it stands in the value of a condition. -/
def escapeChar (c : Char) : List Char :=
  if c = '\\' then ['\\', '5', 'c']
  else if c = '*' then ['\\', '2', 'a']
  else if c = '(' then ['\\', '2', '8']
  else if c = ')' then ['\\', '2', '9']
  else if c = '\x00' then ['\\', '0', '0']
  else [c]

/-- A text as it stands in the value of a condition. -/
def escape (value : String) : String :=
  String.ofList (value.toList.flatMap escapeChar)

/-- The matching rule that follows memberships through any chain of groups. -/
def chainRule : String := "1.2.840.113556.1.4.1941"

/-- The filter that every object passes. -/
def anyObject : String := "(objectClass=*)"

/-- The groups that are members of a group. -/
def memberGroups (group : String) : String :=
  "(&(objectClass=group)(memberOf=" ++ escape group ++ "))"

/-- The user with an account name. -/
def userAccount (account : String) : String :=
  "(&(objectClass=user)(sAMAccountName=" ++ escape account ++ "))"

/-- The user with an account name, if it belongs to a group through any chain of groups. -/
def transitiveMembership (group account : String) : String :=
  "(&(objectClass=user)(sAMAccountName=" ++ escape account ++ ")(memberOf:" ++ chainRule ++
    ":=" ++ escape group ++ "))"

end Filter

end SpnegoRealm.Ldap
