import SpnegoRealm.Ldap.Client
import SpnegoRealm.Proofs.Except

/-! # One connection for each question

A question opens a connection of its own. Whether the server takes the connection and the bind
decides how far the question gets: it is refused with at most a bind sent
(`SpnegoRealm.Ldap.Client.search_of_not_binds`), or it searches once and unbinds whatever comes of
the search (`SpnegoRealm.Ldap.Client.search_of_binds`). The four questions differ in their search
and in what they read off the entries (`SpnegoRealm.Ldap.Client.tell`), and only the question about
one object has an answer for a base that does not exist (`SpnegoRealm.Ldap.Client.absence`).
**Every question keeps to its connection** is
`SpnegoRealm.Ldap.Client.connections_carry_one_search`.
-/

namespace SpnegoRealm

namespace Directory

/-- What a question is answered with. -/
def Request.Answer : Request → Type
  | .objectAttributes _ => Option Entry
  | .memberGroups _ => List String
  | .userGroups _ => List String
  | .isMember _ _ => Bool

/-- What a directory answers to a question. -/
def answer (directory : Directory) :
    (request : Request) → Except DirectoryError request.Answer
  | .objectAttributes dn => directory.objectAttributes dn
  | .memberGroups group => directory.memberGroups group
  | .userGroups account => directory.userGroups account
  | .isMember group account => directory.isMember group account

end Directory

namespace Ldap.Client

variable (client : Client) (request : Directory.Request)

/-! ## Connecting -/

/-- The bind of a connection. -/
def binding : Request :=
  .bind client.credentials.1 client.credentials.2

/-- The server takes the connection, and the bind with its name and password succeeds. -/
def Binds : Prop :=
  client.server.refusal = none ∧
    ∃ result, client.server.bind client.credentials.1 client.credentials.2 = some result ∧
      result.code = Result.successCode

private theorem isSuccess_iff (result : Result) :
    result.isSuccess = true ↔ result.code = Result.successCode := by
  simp [Result.isSuccess]

variable {client}

/-- The name and the password of the bind are empty, or they are the configured ones. -/
theorem credentials_cases : client.credentials = ("", "") ∨
    ∃ dn password, client.credentials = (dn, password) ∧
      client.config.bindDn = some dn ∧ client.config.bindPassword = some password := by
  unfold credentials
  split
  next dn password named secret => exact .inr ⟨dn, password, rfl, named, secret⟩
  next => exact .inl rfl

private theorem connect_of_binds (binds : client.Binds) :
    client.connect = ⟨.ok (), [client.binding]⟩ := by
  obtain ⟨taken, result, bound, succeeded⟩ := binds
  have success : result.isSuccess = true := (isSuccess_iff result).mpr succeeded
  simp [connect, taken, bound, success, binding]

/-- A connection that is not bound is a connection error, and at most the bind was sent. -/
theorem connect_of_not_binds (unbound : ¬ client.Binds) : ∃ detail sent,
    client.connect = ⟨.error (.connection detail), sent⟩ ∧ sent <+: [client.binding] := by
  unfold connect
  cases refused : client.server.refusal with
  | some reason => exact ⟨_, _, rfl, List.nil_prefix⟩
  | none =>
      cases replied : client.server.bind client.credentials.1 client.credentials.2 with
      | none =>
          simp only [replied]
          exact ⟨_, _, rfl, List.prefix_rfl⟩
      | some result =>
          have failed : ¬ result.isSuccess = true := fun success =>
            unbound ⟨refused, result, replied, (isSuccess_iff result).mp success⟩
          simp only [replied, if_neg failed]
          exact ⟨_, _, rfl, List.prefix_rfl⟩

/-! ## Searching -/

/-- A bound connection carries the search and the unbind, whether or not the server replies. -/
theorem search_of_binds (binds : client.Binds) (search : Search) :
    client.search search =
      ⟨(client.server.search search).elim (.error (.query "connection closed")) .ok,
        [client.binding, .search search, .unbind]⟩ := by
  unfold Client.search
  rw [connect_of_binds binds]
  cases client.server.search search <;> rfl

/-- A connection that is not bound carries no search. -/
theorem search_of_not_binds (unbound : ¬ client.Binds) (search : Search) : ∃ detail sent,
    client.search search = ⟨.error (.connection detail), sent⟩ ∧ sent <+: [client.binding] := by
  obtain ⟨detail, sent, failed, begun⟩ := connect_of_not_binds unbound
  refine ⟨detail, sent, ?_, begun⟩
  unfold Client.search
  rw [failed]

variable {request}

private theorem requestsFor_of_binds (binds : client.Binds) : client.requestsFor request =
    [client.binding, .search (client.searchFor request), .unbind] := by
  rw [requestsFor, search_of_binds binds]

private theorem requestsFor_of_not_binds (unbound : ¬ client.Binds) :
    client.requestsFor request <+: [client.binding] := by
  obtain ⟨_, sent, failed, begun⟩ := search_of_not_binds unbound (client.searchFor request)
  rw [requestsFor, failed]
  exact begun

/-- Before a search stands a bind that succeeded, and after it an unbind and nothing else. -/
theorem around_search {search : Search} {before after : List Request}
    (sent : client.requestsFor request = before ++ .search search :: after) :
    client.Binds ∧ before = [client.binding] ∧ after = [.unbind] := by
  by_cases binds : client.Binds
  · rw [requestsFor_of_binds binds] at sent
    refine ⟨binds, ?_⟩
    -- the bind and the unbind are no searches, so the search stands between them
    rcases before with _ | ⟨first, _ | ⟨second, rest⟩⟩
    · simp [binding] at sent
    · simp only [List.cons_append, List.nil_append, List.cons.injEq] at sent
      obtain ⟨rfl, _, rfl⟩ := sent
      exact ⟨rfl, rfl⟩
    · have last : Request.search search ∈ [Request.unbind] := by
        simp only [List.cons_append, List.cons.injEq] at sent
        simp [sent.2.2]
      simp at last
  · have carried : Request.search search ∈ client.requestsFor request := by simp [sent]
    have alone := (requestsFor_of_not_binds binds).subset carried
    simp [binding] at alone

/-- A connection carries the bind, one search and the unbind, as far as it gets. -/
theorem requestsFor_isPrefix : client.requestsFor request <+:
    [client.binding, .search (client.searchFor request), .unbind] := by
  by_cases binds : client.Binds
  · exact requestsFor_of_binds binds ▸ List.prefix_rfl
  · exact (requestsFor_of_not_binds binds).trans (List.prefix_append [client.binding] _)

/-- What is bound with is nothing, or what is configured. -/
theorem configured_of_bind_mem {dn password : String}
    (sent : .bind dn password ∈ client.requestsFor request) : (dn, password) = ("", "") ∨
      client.config.bindDn = some dn ∧ client.config.bindPassword = some password := by
  have carried := requestsFor_isPrefix.subset sent
  simp only [binding, List.mem_cons, Request.bind.injEq, reduceCtorEq, List.not_mem_nil, or_self,
    or_false] at carried
  obtain ⟨rfl, rfl⟩ := carried
  obtain anonymous | ⟨dn, password, both, named, secret⟩ := client.credentials_cases
  · exact .inl anonymous
  · rw [both]
    exact .inr ⟨named, secret⟩

/-! ## Answering -/

/-- What the entries of a search that succeeded tell. -/
def tell : (request : Directory.Request) → List RawEntry → request.Answer
  | .objectAttributes _, entries => entries.head?.map RawEntry.toEntry
  | .memberGroups _, entries => entries.map RawEntry.distinguishedName
  | .userGroups _, [] => []
  | .userGroups _, user :: _ => distinct [] ((user.textValues "memberOf").map Text.lowercase)
  | .isMember _ _, entries => !entries.isEmpty

/-- What is told by the base of a search that does not exist, if that tells anything. -/
def absence : (request : Directory.Request) → Option request.Answer
  | .objectAttributes _ => some none
  | .memberGroups _ | .userGroups _ | .isMember _ _ => none

/-- Only the search for one object may lack its base; the others search the whole domain. -/
theorem absence_isSome_iff :
    (absence request).isSome ↔ (client.searchFor request).scope = .object := by
  cases request with
  | objectAttributes dn => exact ⟨fun _ => rfl, fun _ => rfl⟩
  | memberGroups group => exact ⟨nofun, nofun⟩
  | userGroups account => exact ⟨nofun, nofun⟩
  | isMember group account => exact ⟨nofun, nofun⟩

/-- What a reply answers: a success tells what its entries tell, a base that does not exist what its
absence tells, and any other code is a failure. -/
def interpret (request : Directory.Request) (reply : List RawEntry × Result) :
    Except DirectoryError request.Answer :=
  match absence request with
  | some nothing =>
    if reply.2.code = Result.noSuchObjectCode then .ok nothing
    else (entriesOf reply).map (tell request)
  | none => (entriesOf reply).map (tell request)

/-- A question is answered with what the reply to its search is taken for. -/
theorem answer_toDirectory :
    client.toDirectory.answer request = client.ask request >>= interpret request := by
  cases request with
  | objectAttributes dn => rfl
  | memberGroups group => rfl
  | userGroups account =>
      simp only [Directory.answer, toDirectory, userGroups]
      congr 1
      funext reply
      simp only [interpret, absence]
      cases entriesOf reply with
      | error error => rfl
      | ok entries => cases entries <;> rfl
  | isMember group account => rfl

variable {reply : List RawEntry × Result} {answer : request.Answer} {error : DirectoryError}

private theorem entriesOf_eq_ok_iff {entries : List RawEntry} :
    entriesOf reply = .ok entries ↔ reply.2.code = Result.successCode ∧ reply.1 = entries := by
  unfold entriesOf
  split
  next success => simp [(isSuccess_iff _).mp success]
  next failed => simp [mt (isSuccess_iff _).mpr failed]

private theorem entriesOf_eq_error_iff : entriesOf reply = .error error ↔
    reply.2.code ≠ Result.successCode ∧ error = .query reply.2.message := by
  unfold entriesOf
  split
  next success => simp [(isSuccess_iff _).mp success]
  next failed => simp [mt (isSuccess_iff _).mpr failed, eq_comm]

private theorem interpret_eq_ok_iff : interpret request reply = .ok answer ↔
    reply.2.code = Result.successCode ∧ tell request reply.1 = answer ∨
      reply.2.code = Result.noSuchObjectCode ∧ absence request = some answer := by
  have read : (entriesOf reply).map (tell request) = .ok answer ↔
      reply.2.code = Result.successCode ∧ tell request reply.1 = answer := by
    simp [map_eq_ok_iff, entriesOf_eq_ok_iff, and_assoc]
  unfold interpret
  cases absence request with
  | none => simpa using read
  | some nothing =>
      by_cases missing : reply.2.code = Result.noSuchObjectCode
      · simp [missing, Result.noSuchObjectCode, Result.successCode]
      · simpa [missing] using read

private theorem interpret_eq_error_iff : interpret request reply = .error error ↔
    reply.2.code ≠ Result.successCode ∧
      ¬ (reply.2.code = Result.noSuchObjectCode ∧ (absence request).isSome) ∧
      error = .query reply.2.message := by
  have read : (entriesOf reply).map (tell request) = .error error ↔
      reply.2.code ≠ Result.successCode ∧ error = .query reply.2.message := by
    rw [map_eq_error_iff, entriesOf_eq_error_iff]
  unfold interpret
  cases absence request with
  | none => simpa using read
  | some nothing =>
      by_cases missing : reply.2.code = Result.noSuchObjectCode
      · simp [missing]
      · simpa [missing] using read

/-! ## The discipline of a connection -/

/-- A question whose connection is not bound is answered by a connection error. -/
theorem answer_of_not_binds (request : Directory.Request) (unbound : ¬ client.Binds) :
    ∃ detail, client.toDirectory.answer request = .error (.connection detail) := by
  obtain ⟨detail, _, failed, _⟩ := search_of_not_binds unbound (client.searchFor request)
  refine ⟨detail, ?_⟩
  rw [answer_toDirectory, ask, failed]
  rfl

/-- A question whose connection is bound is answered by what its search comes to. -/
theorem answer_of_binds (binds : client.Binds) : client.toDirectory.answer request =
    (client.server.search (client.searchFor request)).elim (.error (.query "connection closed"))
      (interpret request) := by
  rw [answer_toDirectory, ask, search_of_binds binds]
  cases client.server.search (client.searchFor request) <;> rfl

/-- A question fails for its connection if and only if the connection is not bound. -/
theorem answer_eq_connection_iff :
    (∃ detail, client.toDirectory.answer request = .error (.connection detail)) ↔
      ¬ client.Binds := by
  refine ⟨?_, answer_of_not_binds request⟩
  rintro ⟨detail, failed⟩ binds
  rw [answer_of_binds binds] at failed
  cases replied : client.server.search (client.searchFor request) with
  | none => simp [replied] at failed
  | some reply =>
      rw [replied] at failed
      obtain ⟨_, _, same⟩ := interpret_eq_error_iff.mp failed
      cases same

/-- A question fails for its query if and only if the connection is bound and the search has no
reply, or one that tells nothing. -/
theorem answer_eq_query_iff {detail : String} :
    client.toDirectory.answer request = .error (.query detail) ↔ client.Binds ∧
      (client.server.search (client.searchFor request) = none ∧ detail = "connection closed" ∨
        ∃ entries result,
          client.server.search (client.searchFor request) = some (entries, result) ∧
          result.code ≠ Result.successCode ∧
          ¬ (result.code = Result.noSuchObjectCode ∧
            (client.searchFor request).scope = .object) ∧
          detail = result.message) := by
  by_cases binds : client.Binds
  · rw [answer_of_binds binds, ← absence_isSome_iff]
    obtain _ | ⟨entries, result⟩ := client.server.search (client.searchFor request)
    · simp [binds, eq_comm (a := detail)]
    · simp [binds, interpret_eq_error_iff, and_assoc]
  · obtain ⟨detail, failed⟩ := answer_of_not_binds request binds
    simp [failed, binds]

/-- A question is answered if and only if the connection is bound and the reply tells the answer.
-/
theorem answer_eq_ok_iff :
    client.toDirectory.answer request = .ok answer ↔ client.Binds ∧
      ∃ entries result,
        client.server.search (client.searchFor request) = some (entries, result) ∧
        (result.code = Result.successCode ∧ tell request entries = answer ∨
          result.code = Result.noSuchObjectCode ∧ absence request = some answer) := by
  by_cases binds : client.Binds
  · rw [answer_of_binds binds]
    obtain _ | ⟨entries, result⟩ := client.server.search (client.searchFor request)
    · simp
    · simp [binds, interpret_eq_ok_iff, and_assoc]
  · obtain ⟨detail, failed⟩ := answer_of_not_binds request binds
    simp [failed, binds]

/-- **Every question keeps to its connection.** Whatever the server does and however the client is
configured, the requests of a question are a bind, a search and an unbind, or the first of these. A
search follows a bind that succeeded, is the only one, and is followed by the unbind. A bind is
anonymous, or it carries the configured name and password. A connection that is not bound is a
connection error. A search that the server does not answer, or answers by a code other than
success, is a query error, unless it looks for one object and the code says that there is none; that
object is then absent. Everything else that is answered is what the entries of a search that
succeeded tell. -/
theorem connections_carry_one_search (client : Client) (request : Directory.Request) :
    (client.requestsFor request <+:
      [client.binding, .search (client.searchFor request), .unbind]) ∧
    ((∃ search, .search search ∈ client.requestsFor request) ↔ client.Binds) ∧
    (∀ search before after, client.requestsFor request = before ++ .search search :: after →
      before = [client.binding] ∧ after = [.unbind]) ∧
    (∀ dn password, .bind dn password ∈ client.requestsFor request → (dn, password) = ("", "") ∨
      client.config.bindDn = some dn ∧ client.config.bindPassword = some password) ∧
    ((∃ detail, client.toDirectory.answer request = .error (.connection detail)) ↔
      ¬ client.Binds) ∧
    (∀ detail, client.toDirectory.answer request = .error (.query detail) ↔ client.Binds ∧
      (client.server.search (client.searchFor request) = none ∧ detail = "connection closed" ∨
        ∃ entries result,
          client.server.search (client.searchFor request) = some (entries, result) ∧
          result.code ≠ Result.successCode ∧
          ¬ (result.code = Result.noSuchObjectCode ∧
            (client.searchFor request).scope = .object) ∧
          detail = result.message)) ∧
    (∀ answer, client.toDirectory.answer request = .ok answer ↔ client.Binds ∧
      ∃ entries result,
        client.server.search (client.searchFor request) = some (entries, result) ∧
        (result.code = Result.successCode ∧ tell request entries = answer ∨
          result.code = Result.noSuchObjectCode ∧ absence request = some answer)) := by
  refine ⟨requestsFor_isPrefix, ⟨?_, ?_⟩, ?_, fun _ _ => configured_of_bind_mem,
    answer_eq_connection_iff, fun _ => answer_eq_query_iff, fun _ => answer_eq_ok_iff⟩
  · rintro ⟨search, sent⟩
    obtain ⟨before, after, split⟩ := List.append_of_mem sent
    exact (around_search split).1
  · intro binds
    exact ⟨client.searchFor request, by simp [requestsFor_of_binds binds]⟩
  · intro search before after split
    exact (around_search split).2

end Ldap.Client

end SpnegoRealm
