import SpnegoRealm.Proofs.Groups.BreadthFirst
import SpnegoRealm.Proofs.Groups.Clocked

/-! # The schedule of a search

The steps of a search on a clock amount to the visits of a breadth-first search. The list of these
visits is unfolded along one queue of tasks (`SpnegoRealm.Groups.Search.Plan`): those that ask,
those that wait, and those that were claimed and are still to be submitted. At any instant some
visits are made, and the queue is that of the others (`SpnegoRealm.Groups.Progress.Follows`). A task
starts when the list says that it does, because at every place in the queue that has a lane, a task
has started as soon as it could. Every step keeps to the list
(`SpnegoRealm.Groups.Progress.Follows.step`), some step is always possible
(`SpnegoRealm.Groups.Progress.Follows.exists_step`), and each leaves less to do or less time to wait
(`SpnegoRealm.Groups.Progress.Follows.load_lt`).
-/

namespace SpnegoRealm

namespace Questions

/-- The events by which questions are asked. -/
def asks (events : List (Instant × Event)) : List (Instant × Event) :=
  events.filter fun event => (asked? event.2).isSome

variable {events first second : List (Instant × Event)}

private theorem asked_asks (events : List (Instant × Event)) :
    asked (asks events) = asked events := by
  rw [asked, asks, List.filterMap_filter, asked]
  congr 1
  funext event
  cases asked? event.2 <;> rfl

/-- The questions of events put together are asked one after the other. -/
theorem asks_append : asks (first ++ second) = asks first ++ asks second :=
  List.filter_append ..

/-- The questions among some of the events are some of the questions. -/
theorem asks_filter (keep : Instant × Event → Bool) :
    asks (events.filter keep) = (asks events).filter keep := by
  rw [asks, asks, List.filter_filter, List.filter_filter]
  simp only [Bool.and_comm]

private theorem ended_append : ended (first ++ second) = ended first ++ ended second :=
  List.filterMap_append

end Questions

namespace Groups

/-- A task in the queue, and the instant from which it waits. -/
structure Ticket where
  task : Task
  instant : Instant
  deriving DecidableEq, Repr

/-- The place in the queue of a group that waits at a depth. -/
def Arrival.ticket (depth : ℕ) (arrival : Arrival) : Ticket :=
  ⟨⟨arrival.group, depth⟩, arrival.instant⟩

/-- The question that a visit asks. -/
def Visit.request (visit : Visit) : Directory.Request := .memberGroups visit.group

/-- The event by which a visit begins. -/
def Visit.ask (visit : Visit) : Instant × Event := (visit.start, .asked visit.request)

namespace Search

variable {search : Search}

/-- The visit to the group of a task. -/
def visitOf (search : Search) (known : List String) (finishes : List Instant) (ticket : Ticket) :
    Visit :=
  search.visit ticket.task.depth known finishes ⟨ticket.task.group, ticket.instant⟩

/-- The tasks that a visit brings into the queue. -/
def brought (search : Search) (task : Task) (visit : Visit) : List Ticket :=
  (Finding.successors search.maxDepth ⟨task, visit.claimed⟩).map (⟨·, visit.finish⟩)

/-- The visits to the groups in a queue and to those that these visits bring into it. -/
inductive Plan (search : Search) :
    List String → List Instant → List Ticket → List Visit → Prop
  | nil {known : List String} {finishes : List Instant} : Plan search known finishes [] []
  | cons {known : List String} {finishes : List Instant} {ticket : Ticket} {queue : List Ticket}
    {visit : Visit} {visits : List Visit} (first : visit = search.visitOf known finishes ticket)
    (others : Plan search (known ++ visit.claimedNames) (visit.finish :: finishes)
      (queue ++ search.brought ticket.task visit) visits) :
    Plan search known finishes (ticket :: queue) (visit :: visits)

private theorem map_ticket_eq_brought (group : String) (depth : ℕ) (visit : Visit) :
    (if depth < search.maxDepth then visit.claimed.map (⟨·, visit.finish⟩) else []).map
      (Arrival.ticket (depth + 1)) = search.brought ⟨group, depth⟩ visit := by
  unfold brought Finding.successors
  by_cases shallow : depth < search.maxDepth
  · simp only [if_pos shallow, List.map_map]
    rfl
  · simp only [if_neg shallow, List.map_nil]

/-- The visits of a breadth-first search are those to its queue. -/
theorem plan_visits (depth : ℕ) (known : List String) (finishes : List Instant)
    (deeper here : List Arrival) (tidy : ¬ depth < search.maxDepth → deeper = []) :
    search.Plan known finishes
      (here.map (Arrival.ticket depth) ++ deeper.map (Arrival.ticket (depth + 1)))
      (search.visits depth known finishes deeper here) := by
  induction depth, known, finishes, deeper, here using Search.visits.induct search with
  | case1 depth known finishes shallow =>
      rw [Search.visits, if_pos shallow]
      exact .nil
  | case2 depth known finishes shallow arrival rest ih =>
      rw [Search.visits, if_pos shallow]
      have planned := ih fun _ => rfl
      rwa [List.map_nil, List.append_nil] at planned
  | case3 depth known finishes deeper deepest =>
      rw [Search.visits_of_deepest deepest, tidy deepest]
      exact .nil
  | case4 depth known finishes deeper arrival rest visit waiting ih =>
      rw [Search.visits]
      have tidyAfter : ¬ depth < search.maxDepth → deeper ++ waiting = [] := by
        intro deepest
        rw [tidy deepest, List.nil_append]
        exact dif_neg deepest
      have planned := ih tidyAfter
      rw [List.map_append, ← List.append_assoc] at planned
      refine .cons rfl ?_
      have brought : waiting.map (Arrival.ticket (depth + 1)) =
          search.brought ⟨arrival.group, depth⟩ visit := map_ticket_eq_brought ..
      rw [brought] at planned
      exact planned

private theorem Plan.length_le {known : List String} {finishes : List Instant} {queue : List Ticket}
    {visits : List Visit} (plan : search.Plan known finishes queue visits) :
    queue.length ≤ visits.length := by
  induction plan with
  | nil => exact le_refl _
  | cons first others ih =>
      rw [List.length_append] at ih
      exact Nat.succ_le_succ ((Nat.le_add_right _ _).trans ih)

/-- The instant at which the task at a place in the queue can start, if the tasks before it have
started: once it waits, and once one of the lanes is free. -/
def startAt (search : Search) (finishes : List Instant) (place : ℕ) (ticket : Ticket) : Instant :=
  max ticket.instant ((finishes[search.lanes - 1 - place]?).getD 0)

private theorem start_visitOf (known : List String) (finishes : List Instant) (ticket : Ticket) :
    (search.visitOf known finishes ticket).start = search.startAt finishes 0 ticket := rfl

/-- When the first of the queue is over, the others move up by a place. -/
theorem startAt_cons {finishes : List Instant} {place : ℕ} (finish : Instant) (ticket : Ticket)
    (inside : place + 1 < search.lanes) : search.startAt (finish :: finishes) place ticket =
      search.startAt finishes (place + 1) ticket := by
  have behind : search.lanes - 1 - place = search.lanes - 1 - (place + 1) + 1 := by omega
  rw [startAt, startAt, behind, List.getElem?_cons_succ]

private theorem startAt_cons_last {finishes : List Instant} {place : ℕ} (finish : Instant)
    (ticket : Ticket) (last : place + 1 = search.lanes) :
    search.startAt (finish :: finishes) place ticket = max ticket.instant finish := by
  have front : search.lanes - 1 - place = 0 := by omega
  rw [startAt, front, List.getElem?_cons_zero, Option.getD_some]

private theorem startAt_eq_instant {finishes : List Instant} {place : ℕ} {ticket : Ticket}
    (ended : ∀ finish ∈ finishes, finish ≤ ticket.instant) :
    search.startAt finishes place ticket = ticket.instant := by
  refine max_eq_left ?_
  cases found : finishes[search.lanes - 1 - place]? with
  | none => exact Nat.zero_le _
  | some finish => exact ended finish (List.mem_of_getElem? found)

end Search

namespace Progress

private theorem asks_answerEvents (search : Search) (task : Task) (progress : Progress) :
    Questions.asks (progress.answerEvents search task) = [] := by
  unfold answerEvents
  split <;> rfl

/-- The tasks that are to be over next: those that ask, those that wait, and those that are still to
be submitted. -/
def queue (search : Search) (progress : Progress) : List Task :=
  progress.asking.map Question.task ++ progress.waiting ++ progress.handing ++
    progress.finished.flatMap (Finding.successors search.maxDepth)

/-- A search has made some of its visits and is about to make the others, whose tasks are in the
queue or will be brought into it. -/
structure Follows (search : Search) (done remaining : List Visit) (tickets : List Ticket)
    (progress : Progress) : Prop where
  plan : search.Plan progress.known (done.map Visit.finish).reverse tickets remaining
  tasks : tickets.map Ticket.task = progress.queue search
  arrived : ∀ ticket ∈ tickets, ticket.instant ≤ progress.now
  ended : ∀ visit ∈ done, visit.finish ≤ progress.now
  counts : progress.Counts search
  /-- A task has started as soon as it could, and one that can start now could not start before. -/
  prompt : ∀ place < search.lanes, ∀ ticket, tickets[place]? = some ticket →
    search.startAt (done.map Visit.finish).reverse place ticket =
      (progress.asking[place]?.map Question.since).getD progress.now
  asking : ∀ question ∈ progress.asking, question.since ≤ progress.now ∧
    progress.now ≤ question.since + search.directory.latency
  ordered : progress.asking.Pairwise (·.since ≤ ·.since)
  events : progress.events.Perm
    (done.flatMap Visit.events ++ progress.asking.map Question.event)
  asks : Questions.asks progress.events =
    done.map Visit.ask ++ progress.asking.map Question.event

variable {search : Search} {done remaining : List Visit} {tickets : List Ticket}
  {progress next : Progress}

/-- At first a search is about to make all its visits. -/
theorem follows_initial (search : Search) (seed : String) (start : Instant) :
    Follows search [] (search.visits 1 [Text.lowercase seed] [] [] [⟨seed, start⟩])
      [⟨⟨seed, 1⟩, start⟩] (initial search seed start) where
  plan := search.plan_visits 1 [Text.lowercase seed] [] [] [⟨seed, start⟩] fun _ => rfl
  tasks := rfl
  arrived := by simp [initial]
  ended := by simp
  counts := ⟨rfl, rfl⟩
  prompt place _ ticket found := by
    have same : ticket = ⟨⟨seed, 1⟩, start⟩ := List.mem_singleton.mp (List.mem_of_getElem? found)
    rw [same]
    exact Search.startAt_eq_instant (by simp)
  asking := by simp [initial]
  ordered := .nil
  events := .nil
  asks := rfl

/-- The visit that is over when a question is answered now. -/
structure Ends (search : Search) (progress : Progress) (question : Question) (visit : Visit) :
    Prop where
  group : visit.group = question.task.group
  start : visit.start = question.since
  finish : visit.finish = progress.now
  failed : visit.failed = !(search.directory.memberGroups question.task.group).isOk
  claimed : visit.claimed = progress.claimedBy search question.task

private theorem Ends.ask {question : Question} {visit : Visit}
    (ends : Ends search progress question visit) : visit.ask = question.event := by
  rw [Visit.ask, Visit.request, ends.start, ends.group]
  rfl

private theorem Ends.events {question : Question} {visit : Visit}
    (ends : Ends search progress question visit) :
    visit.events = question.event :: progress.answerEvents search question.task := by
  rw [Visit.events, answerEvents, ends.group, ends.start, ends.finish, ends.failed]
  rfl

namespace Follows

private theorem start (follows : progress.Follows search done remaining tickets) {task : Task}
    {rest : List Task} (waits : progress.waiting = task :: rest) (free : 0 < progress.permits) :
    Follows search done remaining tickets (progress.afterStart task rest) := by
  unfold afterStart
  exact
    { plan := follows.plan
      tasks := by
        rw [follows.tasks]
        simp [queue, waits]
      arrived := follows.arrived
      ended := follows.ended
      counts := by
        obtain ⟨permits, inFlight⟩ := follows.counts
        constructor <;> simp only [List.length_append, List.length_singleton] <;> omega
      prompt place inside ticket found := by
        rw [follows.prompt place inside ticket found]
        -- the task that starts now is the first one that could start now
        rcases lt_trichotomy place progress.asking.length with before | rfl | behind
        · simp [List.getElem?_append_left before]
        · simp
        · have absent : progress.asking[place]? = none := List.getElem?_eq_none behind.le
          have still : (progress.asking ++ [⟨task, progress.now⟩])[place]? = none := by
            rw [List.getElem?_eq_none_iff, List.length_append]
            exact behind
          rw [absent, still]
      asking question member := by
        rcases List.mem_append.mp member with old | new
        · exact follows.asking question old
        · rw [List.mem_singleton.mp new]
          exact ⟨le_refl _, Nat.le_add_right _ _⟩
      ordered := by
        refine List.pairwise_append.mpr ⟨follows.ordered, List.pairwise_singleton _ _, ?_⟩
        intro question old other new
        rw [List.mem_singleton.mp new]
        exact (follows.asking question old).1
      events := by
        rw [List.map_append, ← List.append_assoc]
        exact follows.events.append_right _
      asks := by
        rw [Questions.asks_append, follows.asks, List.append_assoc, List.map_append]
        rfl }

/-- The question asked first belongs to the first visit that is still to be made. -/
theorem exists_ends (follows : progress.Follows search done remaining tickets)
    {question : Question} {rest : List Question} (asks : progress.asking = question :: rest)
    (due : question.since + search.directory.latency ≤ progress.now) :
    ∃ ticket more visit others, tickets = ticket :: more ∧ remaining = visit :: others ∧
      ticket.task = question.task ∧ Ends search progress question visit ∧
      more.map Ticket.task = rest.map Question.task ++ progress.waiting ++ progress.handing ++
        progress.finished.flatMap (Finding.successors search.maxDepth) ∧
      search.Plan (progress.known ++ visit.claimedNames)
        (visit.finish :: (done.map Visit.finish).reverse)
        (more ++ search.brought ticket.task visit) others := by
  have tasks := follows.tasks
  rw [queue, asks, List.map_cons, List.cons_append, List.cons_append, List.cons_append] at tasks
  obtain ⟨ticket, more, rfl, sameTask, others⟩ := List.map_eq_cons_iff.mp tasks
  have plan := follows.plan
  cases plan with
  | @cons _ _ _ _ visit _ first later =>
      have began : visit.start = question.since := by
        have lane : 0 < search.lanes := by
          have permits := follows.counts.permits
          rw [asks, List.length_cons] at permits
          omega
        have prompt := follows.prompt 0 lane ticket rfl
        rw [asks] at prompt
        rw [first, Search.start_visitOf, prompt]
        rfl
      have ended : visit.finish = progress.now := by
        have ends : visit.finish = visit.start + search.directory.latency := by
          rw [first]
          rfl
        rw [ends, began]
        exact le_antisymm due (follows.asking question (by simp [asks])).2
      refine ⟨ticket, more, visit, _, rfl, rfl, sameTask, ?_, others, later⟩
      exact
        { group := by
            rw [first, ← sameTask]
            rfl
          start := began
          finish := ended
          failed := by
            rw [first, ← sameTask]
            rfl
          claimed := by
            rw [first, ← sameTask]
            rfl }

/-- After an answer, too, every task has started as soon as it could: the one that gets the free
lane and those that come into the queue could not start before now. -/
theorem prompt_answer {ticket : Ticket} {more brought : List Ticket} {question : Question}
    {rest : List Question} (follows : progress.Follows search done remaining (ticket :: more))
    (asks : progress.asking = question :: rest) (fewer : rest.length ≤ more.length)
    (now : ∀ other ∈ brought, other.instant = progress.now) {place : ℕ}
    (inside : place < search.lanes) {other : Ticket}
    (found : (more ++ brought)[place]? = some other) :
    search.startAt (progress.now :: (done.map Visit.finish).reverse) place other =
      (rest[place]?.map Question.since).getD progress.now := by
  by_cases last : place + 1 = search.lanes
  · have beyond : rest[place]? = none := by
      have permits := follows.counts.permits
      rw [asks, List.length_cons] at permits
      exact List.getElem?_eq_none (by omega)
    have waited : other.instant ≤ progress.now := by
      rcases List.mem_append.mp (List.mem_of_getElem? found) with old | new
      · exact follows.arrived other (List.mem_cons_of_mem _ old)
      · exact (now other new).le
    rw [Search.startAt_cons_last _ _ last, beyond]
    exact max_eq_right waited
  · have inner : place + 1 < search.lanes := by omega
    rw [Search.startAt_cons _ _ inner]
    by_cases queued : place < more.length
    · rw [List.getElem?_append_left queued] at found
      have prompt := follows.prompt (place + 1) inner other found
      rwa [asks] at prompt
    · have behind : more.length ≤ place := Nat.le_of_not_lt queued
      rw [List.getElem?_append_right behind] at found
      have arrives := now other (List.mem_of_getElem? found)
      rw [List.getElem?_eq_none (fewer.trans behind), Search.startAt_eq_instant, arrives]
      · rfl
      · intro finish member
        obtain ⟨visit, visited, rfl⟩ := List.mem_map.mp (List.mem_reverse.mp member)
        rw [arrives]
        exact follows.ended visit visited

/-- An answer ends the first visit that is still to be made. -/
theorem answer (follows : progress.Follows search done remaining tickets) {question : Question}
    {rest : List Question} (asks : progress.asking = question :: rest)
    (due : question.since + search.directory.latency ≤ progress.now) :
    ∃ visit others queue, remaining = visit :: others ∧
      Follows search (done ++ [visit]) others queue
        (progress.afterAnswer search question rest) := by
  obtain ⟨ticket, more, visit, others, rfl, rfl, sameTask, ends, tasks, later⟩ :=
    follows.exists_ends asks due
  obtain ⟨permits, inFlight⟩ := follows.counts
  have ordered := follows.ordered
  rw [asks, List.length_cons] at permits inFlight
  rw [asks, List.pairwise_cons] at ordered
  have finishes : ((done ++ [visit]).map Visit.finish).reverse =
      visit.finish :: (done.map Visit.finish).reverse := by simp
  have brought : ∀ ticket' ∈ search.brought ticket.task visit, ticket'.instant = progress.now := by
    intro ticket' member
    obtain ⟨task, _, rfl⟩ := List.mem_map.mp member
    exact ends.finish
  refine ⟨visit, others, more ++ search.brought ticket.task visit, rfl, ?_⟩
  unfold afterAnswer
  exact
    { plan := by
        rw [finishes]
        have names : (progress.recorded ++ progress.claimedBy search question.task).map
            Text.lowercase = progress.known ++ visit.claimedNames := by
          rw [List.map_append, Visit.claimedNames, ends.claimed, known]
        rw [known, names]
        exact later
      tasks := by
        have successors : (search.brought ticket.task visit).map Ticket.task =
            Finding.successors search.maxDepth
              ⟨question.task, progress.claimedBy search question.task⟩ := by
          rw [Search.brought, List.map_map, sameTask, ends.claimed]
          exact List.map_id _
        rw [List.map_append, tasks, successors, queue, List.flatMap_append, List.flatMap_singleton,
          List.append_assoc]
      arrived := by
        intro ticket' member
        rcases List.mem_append.mp member with old | new
        · exact follows.arrived ticket' (List.mem_cons_of_mem _ old)
        · exact (brought ticket' new).le
      ended := by
        intro other member
        rcases List.mem_append.mp member with old | new
        · exact follows.ended other old
        · rw [List.mem_singleton.mp new]
          exact ends.finish.le
      counts := by
        constructor <;> simp only <;> omega
      prompt := by
        intro place inside other found
        rw [finishes, ends.finish]
        have lengths := congrArg List.length tasks
        simp only [List.length_map, List.length_append] at lengths
        exact follows.prompt_answer asks (by omega) brought inside found
      asking := fun other member => follows.asking other (by simp [asks, member])
      ordered := ordered.2
      events := by
        have events := follows.events
        rw [asks, List.map_cons] at events
        rw [List.flatMap_append, List.flatMap_singleton, ends.events, List.append_assoc,
          List.cons_append]
        refine (events.append_right _).trans ?_
        rw [List.append_assoc, List.cons_append]
        exact (List.perm_append_comm.cons _).append_left _
      asks := by
        rw [Questions.asks_append, asks_answerEvents, follows.asks, asks, List.append_nil,
          List.map_append, List.append_assoc, List.map_singleton, ends.ask]
        rfl }

private theorem join (follows : progress.Follows search done remaining tickets) {finding : Finding}
    {rest : List Finding} (idle : progress.handing = [])
    (ended : progress.finished = finding :: rest) :
    Follows search done remaining tickets
      { progress with finished := rest, handing := finding.successors search.maxDepth } :=
  { follows with
    counts := { follows.counts with }
    tasks := by
      rw [follows.tasks, queue, queue, idle, ended, List.flatMap_cons, List.append_nil,
        List.append_assoc _ (finding.successors search.maxDepth)] }

private theorem submit (follows : progress.Follows search done remaining tickets) {task : Task}
    {rest : List Task} (hands : progress.handing = task :: rest) :
    Follows search done remaining tickets
      { progress with waiting := progress.waiting ++ [task], handing := rest } :=
  { follows with
    counts := { follows.counts with }
    tasks := by
      rw [follows.tasks, queue, queue, hands]
      simp only [List.append_assoc, List.cons_append, List.nil_append] }

private theorem tick (follows : progress.Follows search done remaining tickets) {later : Instant}
    (quiet : progress.Quiet search) (passes : progress.now < later)
    (early : ∀ question ∈ progress.asking,
      later ≤ question.since + search.directory.latency) :
    Follows search done remaining tickets { progress with now := later } :=
  { follows with
    counts := { follows.counts with }
    arrived := fun ticket member => (follows.arrived ticket member).trans passes.le
    ended := fun visit member => (follows.ended visit member).trans passes.le
    asking := fun question member =>
      ⟨(follows.asking question member).1.trans passes.le, early question member⟩
    prompt := by
      intro place inside ticket found
      rw [follows.prompt place inside ticket found]
      -- a task that could start now would not have let time pass
      have started : place < progress.asking.length := by
        rcases quiet.waiting with empty | busy
        · have lengths := congrArg List.length follows.tasks
          simp only [queue, empty, quiet.handing, quiet.finished, List.flatMap_nil,
            List.append_nil, List.length_map] at lengths
          rw [← lengths]
          exact (List.getElem?_eq_some_iff.mp found).1
        · have permits := follows.counts.permits
          omega
      rw [List.getElem?_eq_getElem started]
      rfl }

/-- Every step keeps to the visits. -/
theorem step (follows : progress.Follows search done remaining tickets)
    (step : progress.Step search next) : ∃ done' remaining' tickets',
      done ++ remaining = done' ++ remaining' ∧ next.Follows search done' remaining' tickets' := by
  cases step with
  | start waits free => exact ⟨_, _, _, rfl, follows.start waits free⟩
  | answer asks due =>
      obtain ⟨visit, others, queue, rfl, follows'⟩ := follows.answer asks due
      exact ⟨_, _, _, by simp, follows'⟩
  | join idle ended => exact ⟨_, _, _, rfl, follows.join idle ended⟩
  | submit hands => exact ⟨_, _, _, rfl, follows.submit hands⟩
  | tick quiet passes early => exact ⟨_, _, _, rfl, follows.tick quiet passes early⟩

/-- A search that is complete has made all its visits. -/
theorem of_isComplete (follows : progress.Follows search done remaining tickets)
    (complete : progress.IsComplete) : remaining = [] := by
  have tasks := follows.tasks
  simp only [queue, complete.waiting, complete.asking, complete.handing, complete.finished,
    List.map_nil, List.flatMap_nil, List.append_nil] at tasks
  have plan := follows.plan
  rw [List.map_eq_nil_iff.mp tasks] at plan
  cases plan
  rfl

/-- If any question is due, the first one is, which was not asked later. -/
theorem exists_first_due (follows : progress.Follows search done remaining tickets)
    {question : Question} (member : question ∈ progress.asking)
    (due : question.since + search.directory.latency ≤ progress.now) :
    ∃ first rest, progress.asking = first :: rest ∧
      first.since + search.directory.latency ≤ progress.now := by
  obtain ⟨first, rest, asks⟩ := List.exists_cons_of_ne_nil (List.ne_nil_of_mem member)
  refine ⟨first, rest, asks, ?_⟩
  have ordered := follows.ordered
  rw [asks] at member ordered
  rcases List.mem_cons.mp member with rfl | later
  · exact due
  · have earlier := (List.pairwise_cons.mp ordered).1 question later
    exact (Nat.add_le_add_right earlier _).trans due

/-- A question that is due is answered now, if the search is left alone. -/
theorem exists_finish_of_due (follows : progress.Follows search done remaining tickets)
    {question : Question} (member : question ∈ progress.asking)
    (due : question.since + search.directory.latency ≤ progress.now) :
    ∃ visit ∈ remaining, visit.finish = progress.now := by
  obtain ⟨first, rest, asks, firstDue⟩ := follows.exists_first_due member due
  obtain ⟨_, _, visit, others, _, rfl, _, ends, _, _⟩ := follows.exists_ends asks firstDue
  exact ⟨visit, List.mem_cons_self, ends.finish⟩

/-- A search can always go on, if only by letting a millisecond pass. -/
theorem exists_step (follows : progress.Follows search done remaining tickets) :
    ∃ next, progress.Step search next ∧ next.now ≤ progress.now + 1 := by
  by_cases idle : progress.handing = []
  case neg =>
    obtain ⟨task, rest, hands⟩ := List.exists_cons_of_ne_nil idle
    exact ⟨_, .submit hands, Nat.le_succ _⟩
  by_cases joined : progress.finished = []
  case neg =>
    obtain ⟨finding, rest, ended⟩ := List.exists_cons_of_ne_nil joined
    exact ⟨_, .join idle ended, Nat.le_succ _⟩
  by_cases started : progress.waiting = [] ∨ progress.permits = 0
  case neg =>
    obtain ⟨some, free⟩ := not_or.mp started
    obtain ⟨task, rest, waits⟩ := List.exists_cons_of_ne_nil some
    exact ⟨_, .start waits (Nat.pos_of_ne_zero free), Nat.le_succ _⟩
  by_cases answered : ∀ question ∈ progress.asking,
    progress.now < question.since + search.directory.latency
  case pos =>
    exact ⟨_, .tick ⟨started, joined, idle, answered⟩ (Nat.lt_succ_self _) answered, le_refl _⟩
  case neg =>
    push Not at answered
    obtain ⟨question, member, due⟩ := answered
    obtain ⟨first, rest, asks, firstDue⟩ := follows.exists_first_due member due
    exact ⟨_, .answer asks firstDue, Nat.le_succ _⟩

end Follows

/-! ## How long a search goes on -/

/-- The steps that a search may still take, apart from those that let time pass: at most four for
each visit that is still to be made. -/
def load (visits : List Visit) (progress : Progress) : ℕ :=
  4 * (visits.length - (Questions.ended progress.events).length) + progress.finished.length -
    (progress.waiting.length + 2 * progress.asking.length)

/-- How long the first question may still take. -/
def patience (search : Search) (progress : Progress) : ℕ :=
  match progress.asking with
  | [] => 0
  | question :: _ => question.since + search.directory.latency - progress.now

/-- The questions of some visits are asked as these begin. -/
theorem asks_visits (visits : List Visit) :
    Questions.asks (visits.flatMap Visit.events) = visits.map Visit.ask := by
  induction visits with
  | nil => rfl
  | cons visit rest ih =>
      have one : Questions.asks visit.events = [visit.ask] := by
        unfold Visit.events
        split <;> rfl
      rw [List.flatMap_cons, Questions.asks_append, one, ih]
      rfl

private theorem ended_visits (visits : List Visit) :
    Questions.ended (visits.flatMap Visit.events) = visits.map Visit.request := by
  induction visits with
  | nil => rfl
  | cons visit rest ih =>
      have one : Questions.ended visit.events = [visit.request] := by
        unfold Visit.events
        split <;> rfl
      rw [List.flatMap_cons, Questions.ended_append, one, ih]
      rfl

private theorem ended_asking (asking : List Question) :
    Questions.ended (asking.map Question.event) = [] := by
  induction asking with
  | nil => rfl
  | cons question rest ih => exact ih

namespace Follows

/-- A search has asked the questions of the visits that are made and of the tasks that ask. -/
theorem asked (follows : progress.Follows search done remaining tickets) :
    Questions.asked progress.events =
      done.map Visit.request ++ progress.asking.map (·.task.request) := by
  have visits : (done.map Visit.ask).filterMap (fun event => Questions.asked? event.2) =
      done.map Visit.request := by
    rw [List.filterMap_map]
    exact congrFun List.filterMap_eq_map' done
  have questions : (progress.asking.map Question.event).filterMap
      (fun event => Questions.asked? event.2) = progress.asking.map (·.task.request) := by
    rw [List.filterMap_map]
    exact congrFun List.filterMap_eq_map' progress.asking
  rw [← Questions.asked_asks, follows.asks, Questions.asked, List.filterMap_append, visits,
    questions]

/-- The questions that ended are those of the visits that are made. -/
theorem ended_perm (follows : progress.Follows search done remaining tickets) :
    (Questions.ended progress.events).Perm (done.map Visit.request) := by
  have perm := follows.events.filterMap fun event => Questions.ended? event.2
  change (Questions.ended _).Perm (Questions.ended _) at perm
  rwa [Questions.ended_append, ended_visits, ended_asking, List.append_nil] at perm

/-- Every task in the queue has a visit that is still to be made. -/
theorem length_queue_le (follows : progress.Follows search done remaining tickets) :
    progress.asking.length + progress.waiting.length + progress.handing.length ≤
      remaining.length := by
  have lengths := congrArg List.length follows.tasks
  simp only [queue, List.length_append, List.length_map] at lengths
  have fits := follows.plan.length_le
  omega

private theorem load_eq (follows : progress.Follows search done remaining tickets) :
    progress.load (done ++ remaining) = 4 * remaining.length + progress.finished.length -
      (progress.waiting.length + 2 * progress.asking.length) := by
  have ended := follows.ended_perm.length_eq
  rw [List.length_map] at ended
  rw [load, ended, List.length_append, Nat.add_sub_cancel_left]

/-- A step leaves less to do, or it lets time pass that the first question may still take, unless
the search is complete. -/
theorem load_lt (follows : progress.Follows search done remaining tickets)
    (some : 0 < search.lanes) (step : progress.Step search next) :
    next.now = progress.now ∧
        next.load (done ++ remaining) < progress.load (done ++ remaining) ∨
      progress.now < next.now ∧
        next.load (done ++ remaining) = progress.load (done ++ remaining) ∧
        (progress.IsComplete ∨ next.patience search < progress.patience search) := by
  have room := follows.length_queue_le
  cases step with
  | start waits free =>
      refine .inl ⟨rfl, ?_⟩
      rw [(follows.start waits free).load_eq, follows.load_eq, waits]
      rw [waits] at room
      simp only [afterStart, List.length_append, List.length_cons, List.length_nil] at room ⊢
      omega
  | answer asks due =>
      obtain ⟨visit, others, queue, rfl, follows'⟩ := follows.answer asks due
      refine .inl ⟨rfl, ?_⟩
      rw [List.append_cons, follows'.load_eq, ← List.append_cons, follows.load_eq, asks]
      rw [asks] at room
      simp only [afterAnswer, List.length_append, List.length_cons, List.length_nil] at room ⊢
      omega
  | join idle ended =>
      refine .inl ⟨rfl, ?_⟩
      rw [(follows.join idle ended).load_eq, follows.load_eq, ended]
      simp only [List.length_cons]
      omega
  | submit hands =>
      refine .inl ⟨rfl, ?_⟩
      rw [(follows.submit hands).load_eq, follows.load_eq]
      rw [hands] at room
      simp only [List.length_append, List.length_cons, List.length_nil] at room ⊢
      omega
  | tick quiet passes early =>
      refine .inr ⟨passes, rfl, ?_⟩
      by_cases silent : progress.asking = []
      · have permits := follows.counts.permits
        rw [silent, List.length_nil, Nat.add_zero] at permits
        have empty := quiet.waiting.resolve_right (by omega)
        exact .inl ⟨empty, silent, quiet.finished, quiet.handing⟩
      · obtain ⟨question, rest, asks⟩ := List.exists_cons_of_ne_nil silent
        have due := quiet.asking question (by simp [asks])
        simp only [patience, asks]
        exact .inr (Nat.sub_lt_sub_left due passes)

end Follows

end Progress

end Groups

end SpnegoRealm
