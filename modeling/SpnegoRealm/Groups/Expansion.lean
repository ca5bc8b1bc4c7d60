import SpnegoRealm.Event

/-! # Nested groups

The groups below a group are found by asking for the members of the group, of its members, and
so on down to a depth. Groups are told apart by their lowercased names: the first visit that
meets a name claims it, with the spelling met there, and only claimed groups are visited. Visits
start first in, first out, and at most a bounded number of them waits for an answer at once. A
question that fails is answered by no members.

The list of visits is computed first; the groups found, the events of the run and its end are
read off it.
-/

namespace SpnegoRealm.Groups

/-- How far and how widely nested groups are followed. -/
structure Limits where
  maxDepth : Nat
  maxWorkers : Nat
  deriving DecidableEq, Repr

/-- The greatest number of permits that a run can hold. -/
def permitLimit : Nat := Nat.pow 2 61 - 1

/-- The members whose lowercased names are not known, each once, with its first spelling. -/
def claim (known : List String) : List String → List String
  | [] => []
  | child :: rest =>
    if known.contains (Text.lowercase child) then claim known rest
    else child :: claim (Text.lowercase child :: known) rest

/-- A group that waits to be visited, and the instant from which it waits. -/
structure Arrival where
  group : String
  instant : Instant
  deriving DecidableEq, Repr

/-- One question for the members of a group. -/
structure Visit where
  group : String
  depth : Nat
  start : Instant
  finish : Instant
  /-- Whether the question failed. -/
  failed : Bool
  /-- The members that this visit was the first to meet. -/
  claimed : List String
  deriving DecidableEq, Repr

/-- A search below a group. -/
structure Search where
  directory : Directory
  maxDepth : Nat
  /-- The number of visits that may be under way at once. -/
  lanes : Nat

namespace Search

/-- The instant at which a lane is free, given the ends of the visits so far, latest first. -/
def laneFree (search : Search) (finishes : List Instant) : Instant :=
  (finishes[search.lanes - 1]?).getD 0

/-- The members that a question for them brings up. -/
def members (search : Search) (group : String) : List String :=
  ((search.directory.memberGroups group).toOption).getD []

/-- The visit to a group, given the names known and the ends of the visits so far. -/
def visit (search : Search) (depth : Nat) (known : List String) (finishes : List Instant)
    (arrival : Arrival) : Visit :=
  let start := max arrival.instant (search.laneFree finishes)
  { group := arrival.group
    depth := depth
    start := start
    finish := start + search.directory.latency
    failed := !(search.directory.memberGroups arrival.group).isOk
    claimed := claim known (search.members arrival.group) }

/-- The visits to the groups that wait at a depth, to those that wait one level deeper, and to
the groups that these visits claim. -/
def visits (search : Search) (depth : Nat) (known : List String) (finishes : List Instant)
    (deeper : List Arrival) : List Arrival → List Visit
  | [] =>
    if depth < search.maxDepth then
      match deeper with
      | [] => []
      | arrival :: rest => search.visits (depth + 1) known finishes [] (arrival :: rest)
    else
      []
  | arrival :: rest =>
    let visit := search.visit depth known finishes arrival
    let waiting :=
      if depth < search.maxDepth then visit.claimed.map (⟨·, visit.finish⟩) else []
    visit :: search.visits depth (known ++ visit.claimed.map Text.lowercase)
      (visit.finish :: finishes) (deeper ++ waiting) rest
termination_by here => (search.maxDepth - depth, here.length)

end Search

/-- The visits of a search below a group that starts at an instant. Without latency every visit
ends before the next one starts, so there is one lane. -/
def visitsFrom (directory : Directory) (limits : Limits) (seed : String) (start : Instant) :
    List Visit :=
  let search : Search :=
    { directory := directory
      maxDepth := limits.maxDepth
      lanes := if directory.latency = 0 then 1 else max limits.maxWorkers 1 }
  search.visits 1 [Text.lowercase seed] [] [] [⟨seed, start⟩]

/-- The groups that some visits found, in increasing order of their spellings. -/
def found (visits : List Visit) : List String :=
  (visits.flatMap (·.claimed)).mergeSort (fun first second => decide (first ≤ second))

/-- The events of a visit. -/
def Visit.events (visit : Visit) : List (Instant × Event) :=
  [(visit.start, .asked (.memberGroups visit.group)),
    (visit.finish, .answered (.memberGroups visit.group))] ++
    (if visit.failed then [(visit.finish, .warned .memberGroupQueryFailed)] else [])

/-- Find the groups below a group. The group itself is not among them. -/
def resolve (directory : Directory) (limits : Limits) (seed : String) : Activity (List String) :=
  fun start =>
    if limits.maxWorkers ≤ permitLimit then
      let visits := visitsFrom directory limits seed start
      .ok {
        value := found visits
        finish := visits.foldl (fun latest visit => max latest visit.finish) start
        events := visits.flatMap Visit.events }
    else
      .error .tooManyWorkers

end SpnegoRealm.Groups
