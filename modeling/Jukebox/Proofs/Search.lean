import Jukebox.Proofs.Archive
import Jukebox.Proofs.Catalog.Forest
import Jukebox.Proofs.Routing

/-!
What a connection that searches has been shown. A result is held back if it shows the same as the
result before it, whether or not that one was delivered. To show the same is an equivalence, so what
was delivered last always shows the same as the result of the latest search.
-/

namespace Jukebox

open Protocol (Command Response)

/-! ### Results that show the same -/

namespace Searcher

/-- As many paths, and at each index the same second key, or none. -/
def Agree (first second : List Path) : Prop :=
  first.length = second.length ∧ ∀ (index : Nat) (path other : Path),
    first[index]? = some path → second[index]? = some other → path[1]? = other[1]?

variable {first second third : List Path}

theorem agree_iff : Agree first second ↔ first.map (·[1]?) = second.map (·[1]?) := by
  constructor
  · rintro ⟨hlength, hkeys⟩
    refine List.ext_getElem (by simpa using hlength) fun index hfirst hsecond => ?_
    rw [List.length_map] at hfirst hsecond
    rw [List.getElem_map, List.getElem_map]
    exact hkeys index _ _ (List.getElem?_eq_getElem hfirst) (List.getElem?_eq_getElem hsecond)
  · intro h
    refine ⟨by simpa using congrArg List.length h, fun index path other hpath hother => ?_⟩
    have hindex := congrArg (·[index]?) h
    simpa [hpath, hother] using hindex

/-- A disc in the attic shows the same as a disc on the shelf. -/
example : Agree [["shelf", "disc"]] [["attic", "disc"]] := agree_iff.2 rfl

theorem agree_refl (results : List Path) : Agree results results := agree_iff.2 rfl

theorem Agree.symm (h : Agree first second) : Agree second first := agree_iff.2 (agree_iff.1 h).symm

theorem Agree.trans (h : Agree first second) (hthird : Agree second third) : Agree first third :=
  agree_iff.2 ((agree_iff.1 h).trans (agree_iff.1 hthird))

theorem sameResults_iff : sameResults first second = true ↔ Agree first second := by
  rw [agree_iff, sameResults, beq_iff_eq]

theorem Agree.eq_of_pairs (h : Agree first second) (root : Key)
    (hfirst : ∀ path ∈ first, ∃ key, path = [root, key])
    (hsecond : ∀ path ∈ second, ∃ key, path = [root, key]) : first = second := by
  refine List.ext_getElem h.1 fun index hlt hltSecond => ?_
  have hkeys := h.2 index _ _ (List.getElem?_eq_getElem hlt) (List.getElem?_eq_getElem hltSecond)
  obtain ⟨key, hkey⟩ := hfirst _ (List.getElem_mem hlt)
  obtain ⟨other, hother⟩ := hsecond _ (List.getElem_mem hltSecond)
  rw [hkey, hother] at hkeys ⊢
  simpa using hkeys

end Searcher

open Searcher (Agree)

/-! ### Results of one collection -/

namespace Search

theorem mem_run {entries : List Library.Entry} {query : String} {path : Path}
    (h : path ∈ run entries query) :
    ∃ entry ∈ entries, 2 ≤ entry.1.length ∧ path = entry.1.truncated 2 := by
  unfold run at h
  dsimp only at h
  split at h
  · cases h
  suffices hfold : ∀ found : List Path, path ∈ entries.foldl (collect (queryWords query)) found →
      path ∈ found ∨ ∃ entry ∈ entries, 2 ≤ entry.1.length ∧ path = entry.1.truncated 2 by
    simpa using hfold [] h
  clear h
  induction entries with
  | nil => exact fun found hfound => .inl hfound
  | cons entry rest ih =>
    intro found hfound
    rcases ih _ hfound with hcollected | ⟨other, hother, hpath⟩
    · unfold collect at hcollected
      dsimp only at hcollected
      split at hcollected
      · exact .inl hcollected
      rename_i hskip
      split at hcollected
      · rcases List.mem_append.1 hcollected with hold | hnew
        · exact .inl hold
        · have hlength : ¬ entry.1.length < 2 := fun hlt => hskip (by simp [hlt])
          exact .inr ⟨entry, List.mem_cons_self, by omega, List.mem_singleton.1 hnew⟩
      · exact .inl hcollected
    · exact .inr ⟨other, List.mem_cons_of_mem entry hother, hpath⟩

end Search

section

variable {library : Library} {catalog : Catalog} {collection : Library.Node}

/-- The top-level groups of a library of one collection are told apart by their second keys. -/
theorem Catalog.eq_of_mem_search (h : Catalog.ofLibrary library = .ok catalog)
    (hone : library.collections = [collection]) {input : String} {path : Path}
    (hpath : path ∈ catalog.search input) : ∃ key, path = [collection.key, key] := by
  obtain ⟨-, rfl⟩ := Catalog.ofLibrary_eq_ok_iff.1 h
  obtain ⟨entry, hentry, hlength, rfl⟩ := Search.mem_run hpath
  obtain ⟨place, hplace, rfl⟩ := List.mem_map.1 hentry
  have hunder : [collection.key] <+: place.1 := by
    obtain ⟨node, hnode, hplace⟩ := Library.mem_places.1 hplace
    rw [hone, List.mem_singleton] at hnode
    exact hnode ▸ Library.Node.prefix_of_mem_places hplace
  obtain ⟨rest, hrest⟩ := hunder
  change 2 ≤ place.1.length at hlength
  change ∃ key, place.1.truncated 2 = _
  rw [← hrest] at hlength ⊢
  cases rest with
  | nil => simp at hlength
  | cons key rest => exact ⟨key, by simp [Path.truncated]⟩

end

/-! ### One command -/

namespace Session

variable {session : Session} {service : Service} {circumstances : Circumstances}
  {command : Command} {response : Option Response} {input : String}

/-- The response that shows the result of a search. -/
def searchResponse (catalog : Catalog) (input : String) : Response :=
  .of "SEARCH" (.list GroupView.toJson (catalog.expandPaths (catalog.search input)))

theorem searcher_handle (h : ∀ input, command ≠ .search input) :
    (session.handle service circumstances command).session.searcher = session.searcher := by
  cases command with
  | search input => exact absurd rfl (h input)
  | forward key action =>
    simp only [handle]
    split <;> rfl
  | _ => rfl

theorem previous_handle_search :
    (session.handle service circumstances (.search input)).session.searcher.previous =
      service.catalog.search input := rfl

/-- A search is answered unless its result shows the same as the result before. -/
theorem answer_handle_search :
    (session.handle service circumstances (.search input)).answer =
      .ok (if Searcher.sameResults session.searcher.previous (service.catalog.search input) then none
        else some (searchResponse service.catalog input)) := by
  simp only [handle, Searcher.search, Searcher.diff]
  split <;> rename_i hfound <;> split at hfound
  · cases hfound
  · rename_i hdiffers
    cases hfound
    rw [if_neg hdiffers]
    rfl
  · rename_i hsame
    rw [if_pos hsame]
  · cases hfound

/-- What becomes of a turn: a command is carried out, and the session goes on unless its response is
not taken; or the session ends. -/
theorem carriedOut?_cases (session : Session) (service : Service) (circumstances : Circumstances)
    (inbound : Inbound) :
    (∃ command response, session.carriedOut? service circumstances inbound = some (command, response) ∧
      (session.handle service circumstances command).answer = .ok response ∧
      ((session.step service circumstances inbound).status =
        .running (session.handle service circumstances command).session ∨
      ∃ failure, (session.step service circumstances inbound).status = .ended failure)) ∨
    session.carriedOut? service circumstances inbound = none ∧
      ∃ failure, (session.step service circumstances inbound).status = .ended failure := by
  cases inbound with
  | failure reason => exact .inr ⟨rfl, _, rfl⟩
  | finish => exact .inr ⟨rfl, _, rfl⟩
  | text frame =>
    simp only [carriedOut?, step]
    cases Command.ofText frame with
    | error failure => exact .inr ⟨rfl, _, rfl⟩
    | ok command =>
      cases hanswer : (session.handle service circumstances command).answer with
      | error failure =>
        refine .inr ⟨by simp [hanswer], some failure, ?_⟩
        simp [settle, hanswer, finish]
      | ok response =>
        refine .inl ⟨command, response, by simp [hanswer], hanswer, ?_⟩
        cases response with
        | none => exact .inl (by simp [settle, hanswer])
        | some message =>
          simp only [settle, hanswer]
          split
          · exact .inl rfl
          · exact .inr ⟨_, rfl⟩

theorem answer_of_carriedOut? {inbound : Inbound}
    (h : session.carriedOut? service circumstances inbound = some (command, response)) :
    (session.handle service circumstances command).answer = .ok response := by
  rcases session.carriedOut?_cases service circumstances inbound with
    ⟨_, _, hcarried, hanswer, -⟩ | ⟨hnone, -⟩
  · rw [h] at hcarried
    cases hcarried
    exact hanswer
  · rw [h] at hnone
    cases hnone

end Session

/-! ### What was delivered -/

/-- The result that a connection is shown, if it is shown one. -/
def Deed.shown? (catalog : Catalog) (connection : Nat) : Deed → Option (List Path)
  | carriedOut other (.search input) (some _) =>
    if other = connection then some (catalog.search input) else none
  | _ => none

/-- The last result that a connection was shown; none yet is no path. -/
def shownOn (catalog : Catalog) (connection : Nat) (history : List Deed) : List Path :=
  (history.reverse.findSome? (Deed.shown? catalog connection)).getD []

variable {catalog : Catalog} {connection other : Nat} {past : List Deed} {deed : Deed}
  {command : Command} {response : Option Response} {input : String}

theorem shownOn_concat : shownOn catalog connection (past ++ [deed]) =
    (deed.shown? catalog connection).getD (shownOn catalog connection past) := by
  unfold shownOn
  rw [List.reverse_append, List.reverse_singleton, List.singleton_append, List.findSome?_cons]
  split <;> rename_i hshown <;> rw [hshown] <;> rfl

theorem mem_shownOn {path : Path} (h : path ∈ shownOn catalog connection past) :
    ∃ input, path ∈ catalog.search input := by
  unfold shownOn at h
  cases hshown : past.reverse.findSome? (Deed.shown? catalog connection) with
  | none => simp [hshown] at h
  | some results =>
    rw [hshown, Option.getD_some] at h
    obtain ⟨deed, -, hdeed⟩ := List.exists_of_findSome?_eq_some hshown
    unfold Deed.shown? at hdeed
    split at hdeed
    · rename_i input _
      split at hdeed
      · cases hdeed
        exact ⟨input, h⟩
      · cases hdeed
    · cases hdeed

theorem shownOn_ended : shownOn catalog connection (past ++ [.ended other]) =
    shownOn catalog connection past := by
  rw [shownOn_concat]
  rfl

theorem shownOn_other (h : other ≠ connection) :
    shownOn catalog connection (past ++ [.carriedOut other command response]) =
      shownOn catalog connection past := by
  rw [shownOn_concat]
  unfold Deed.shown?
  split
  · rename_i heq
    cases heq
    rw [if_neg h]
    rfl
  · rfl

theorem shownOn_answered {message : Response} :
    shownOn catalog connection (past ++ [.carriedOut connection (.search input) (some message)]) =
      catalog.search input := by
  rw [shownOn_concat]
  simp [Deed.shown?]

theorem shownOn_held_back :
    shownOn catalog connection (past ++ [.carriedOut connection command none]) =
      shownOn catalog connection past := by
  rw [shownOn_concat]
  cases command <;> rfl

theorem shownOn_not_search (h : ∀ input, command ≠ .search input) :
    shownOn catalog connection (past ++ [.carriedOut other command response]) =
      shownOn catalog connection past := by
  rw [shownOn_concat]
  cases command with
  | search input => exact absurd rfl (h input)
  | _ => rfl

/-- A command of a session whose searcher remembers what shows the same as what was delivered leaves
it so. -/
theorem Session.agree_handle {session : Session} {service : Service} {circumstances : Circumstances}
    (h : Agree (shownOn service.catalog connection past) session.searcher.previous)
    (hanswer : (session.handle service circumstances command).answer = .ok response) :
    Agree (shownOn service.catalog connection (past ++ [.carriedOut connection command response]))
      (session.handle service circumstances command).session.searcher.previous := by
  by_cases hsearch : ∃ input, command = .search input
  · obtain ⟨input, rfl⟩ := hsearch
    rw [answer_handle_search] at hanswer
    cases hanswer
    rw [previous_handle_search]
    split
    · -- held back, for it shows the same as the result before
      rename_i hsame
      rw [shownOn_held_back]
      exact h.trans (Searcher.sameResults_iff.1 hsame)
    · rw [shownOn_answered]
      exact Searcher.agree_refl _
  · have hother : ∀ input, command ≠ .search input := fun input heq => hsearch ⟨input, heq⟩
    rw [shownOn_not_search hother, searcher_handle hother]
    exact h

namespace System

variable {system : System} {session : Session}

/-- **What was delivered shows the same as what is remembered**, for every connection that runs. A
connection that is not yet made was shown nothing. -/
structure Informed (catalog : Catalog) (past : List Deed) (system : System) : Prop where
  catalog_eq : system.service.catalog = catalog
  unmade : ∀ connection, system.connections ≤ connection →
    system.sessions[connection]? = none ∧ shownOn catalog connection past = []
  agree : ∀ (connection : Nat) (session : Session), system.sessions[connection]? = some session →
    Agree (shownOn catalog connection past) session.searcher.previous

theorem informed_start (service : Service) : Informed service.catalog [] { service } :=
  ⟨rfl, by simp [shownOn], by simp⟩

theorem catalog_step (system : System) (step : Step) :
    (system.step step).service.catalog = system.service.catalog := by
  cases step with
  | connect | mute | save => rfl
  | receive connection fresh now inbound =>
    cases hsession : system.sessions[connection]? with
    | none => simp [System.step, hsession]
    | some session =>
      rw [step_receive hsession, service_settle]
      exact (session.moves_step _ _ inbound).surroundings.catalog_eq

theorem connections_settle (system : System) (connection : Nat) (turn : Session.Turn) :
    (system.settle connection turn).connections = system.connections := by
  unfold settle
  dsimp only
  split <;> rfl

theorem getElem?_settle_running {turn : Session.Turn} (h : turn.status = .running session)
    (other : Nat) : (system.settle connection turn).sessions[other]? =
      if connection = other then some session else system.sessions[other]? := by
  simp only [settle, h]
  exact Map.getElem?_insert _ connection other session

theorem getElem?_settle_ended {turn : Session.Turn} {failure : Option Protocol.Failure}
    (h : turn.status = .ended failure) (other : Nat) :
    (system.settle connection turn).sessions[other]? =
      if connection = other then none else system.sessions[other]? := by
  simp only [settle, h]
  exact Map.getElem?_erase _ connection other

theorem Informed.lt_connections (h : Informed catalog past system)
    (hsession : system.sessions[connection]? = some session) : connection < system.connections := by
  by_contra hle
  rw [(h.unmade connection (by omega)).1] at hsession
  cases hsession

/-- A connection that does something changes nothing for the others. -/
theorem Informed.settle (h : Informed catalog past system)
    (hsession : system.sessions[connection]? = some session) {turn : Session.Turn}
    {done : List Deed} (hcatalog : turn.service.catalog = catalog)
    (hother : ∀ other, other ≠ connection →
      shownOn catalog other (past ++ done) = shownOn catalog other past)
    (hstatus : (∃ failure, turn.status = .ended failure) ∨ ∃ after, turn.status = .running after ∧
      Agree (shownOn catalog connection (past ++ done)) after.searcher.previous) :
    Informed catalog (past ++ done) (system.settle connection turn) := by
  have hlt := h.lt_connections hsession
  refine ⟨by rw [service_settle, hcatalog], fun other hle => ?_, fun other found hfound => ?_⟩
  · rw [connections_settle] at hle
    have hne : other ≠ connection := by omega
    obtain ⟨hnone, hshown⟩ := h.unmade other hle
    rw [hother other hne, hshown]
    refine ⟨?_, rfl⟩
    rcases hstatus with ⟨failure, hended⟩ | ⟨after, hrunning, -⟩
    · rw [getElem?_settle_ended hended, if_neg hne.symm, hnone]
    · rw [getElem?_settle_running hrunning, if_neg hne.symm, hnone]
  · by_cases heq : connection = other
    · subst heq
      rcases hstatus with ⟨failure, hended⟩ | ⟨after, hrunning, hagree⟩
      · rw [getElem?_settle_ended hended, if_pos rfl] at hfound
        cases hfound
      · rw [getElem?_settle_running hrunning, if_pos rfl] at hfound
        cases hfound
        exact hagree
    · rw [hother other (Ne.symm heq)]
      refine h.agree other found ?_
      rcases hstatus with ⟨failure, hended⟩ | ⟨after, hrunning, -⟩
      · rwa [getElem?_settle_ended hended, if_neg heq] at hfound
      · rwa [getElem?_settle_running hrunning, if_neg heq] at hfound

theorem Informed.step (h : Informed catalog past system) (step : Step) :
    Informed catalog (past ++ system.deeds step) (system.step step) := by
  have hcatalog := (catalog_step system step).trans h.catalog_eq
  cases step with
  | mute | save =>
    simp only [deeds, List.append_nil]
    exact ⟨h.catalog_eq, h.unmade, h.agree⟩
  | connect =>
    simp only [deeds, List.append_nil]
    refine ⟨h.catalog_eq, fun other hle => ?_, fun other session hsession => ?_⟩
    · have hle : system.connections + 1 ≤ other := hle
      obtain ⟨hnone, hshown⟩ := h.unmade other (by omega)
      refine ⟨?_, hshown⟩
      rw [System.step, Map.getElem?_insert, if_neg (by omega), hnone]
    · rw [System.step, Map.getElem?_insert] at hsession
      split at hsession
      · rename_i heq
        subst heq
        cases hsession
        rw [(h.unmade _ (Nat.le_refl _)).2]
        exact Searcher.agree_refl []
      · exact h.agree other session hsession
  | receive connection fresh now inbound =>
    cases hsession : system.sessions[connection]? with
    | none =>
      simp only [deeds, System.step, hsession, List.append_nil]
      exact h
    | some session =>
      rw [step_receive hsession] at hcatalog ⊢
      rw [service_settle] at hcatalog
      simp only [deeds, hsession]
      rw [step_receive hsession]
      rcases session.carriedOut?_cases system.service (system.circumstances fresh now) inbound with
        ⟨command, response, hcarried, hanswer, hrunning | ⟨failure, hended⟩⟩ |
        ⟨hcarried, failure, hended⟩
      · simp only [hcarried, mem_sessions_settle hrunning, if_true, List.append_nil]
        refine h.settle hsession hcatalog (fun other hne => shownOn_other hne.symm)
          (.inr ⟨_, hrunning, ?_⟩)
        have hagree := h.agree connection session hsession
        rw [← h.catalog_eq] at hagree ⊢
        exact session.agree_handle hagree hanswer
      · simp only [hcarried, not_mem_sessions_settle hended, if_false]
        refine h.settle hsession hcatalog (fun other hne => ?_) (.inl ⟨failure, hended⟩)
        rw [← List.append_assoc, shownOn_ended, shownOn_other hne.symm]
      · simp only [hcarried, not_mem_sessions_settle hended, if_false, List.nil_append]
        exact h.settle hsession hcatalog (fun other hne => shownOn_ended) (.inl ⟨failure, hended⟩)

theorem Informed.run (h : Informed catalog past system) (steps : List Step) :
    Informed catalog (past ++ system.history steps) (system.run steps) := by
  induction steps generalizing past system with
  | nil => simpa [history, System.run] using h
  | cons step rest ih =>
    have hrun := ih (h.step step)
    rw [List.append_assoc] at hrun
    exact hrun

/-! ### Where a deed comes from -/

/-- The first deed of a step is the command that is carried out in it. -/
theorem of_deeds_eq_append {step : Step} {later : List Deed}
    (h : system.deeds step = past ++ .carriedOut connection command response :: later) :
    past = [] ∧ ∃ fresh now inbound session, step = .receive connection fresh now inbound ∧
      system.sessions[connection]? = some session ∧
      session.carriedOut? system.service (system.circumstances fresh now) inbound =
        some (command, response) := by
  cases step with
  | connect | mute | save => simp [deeds] at h
  | receive other fresh now inbound =>
    cases hsession : system.sessions[other]? with
    | none => simp [deeds, hsession] at h
    | some session =>
      simp only [deeds, hsession] at h
      have hended : .carriedOut connection command response ∉
          if other ∈ (system.step (.receive other fresh now inbound)).sessions then []
          else [Deed.ended other] := by split <;> simp
      revert h hended
      generalize (if other ∈ (system.step (.receive other fresh now inbound)).sessions then []
        else [Deed.ended other]) = rest
      intro h hended
      cases hcarried : session.carriedOut? system.service (system.circumstances fresh now) inbound with
      | none =>
        rw [hcarried] at h
        have hrest : rest = past ++ .carriedOut connection command response :: later := h
        exact absurd (by simp [hrest]) hended
      | some carried =>
        rw [hcarried] at h
        cases past with
        | nil =>
          obtain ⟨hdeed, -⟩ := List.cons.inj h
          cases hdeed
          exact ⟨rfl, fresh, now, inbound, session, rfl, hsession, hcarried⟩
        | cons first others =>
          obtain ⟨-, h⟩ := List.cons.inj h
          have hrest : rest = others ++ .carriedOut connection command response :: later := h
          exact absurd (by simp [hrest]) hended

theorem exists_of_history {steps : List Step} {later : List Deed}
    (h : system.history steps = past ++ .carriedOut connection command response :: later) :
    ∃ before fresh now inbound session after,
      steps = before ++ .receive connection fresh now inbound :: after ∧
      system.history before = past ∧ (system.run before).sessions[connection]? = some session ∧
      session.carriedOut? (system.run before).service ((system.run before).circumstances fresh now)
        inbound = some (command, response) := by
  induction steps generalizing system past with
  | nil => simp [history] at h
  | cons step rest ih =>
    rw [history] at h
    -- the command is carried out in a later step, unless it is the first deed of this one
    have hlater : ∀ others, past = system.deeds step ++ others →
        (system.step step).history rest = others ++ .carriedOut connection command response :: later →
        ∃ before fresh now inbound session after,
          step :: rest = before ++ .receive connection fresh now inbound :: after ∧
          system.history before = past ∧ (system.run before).sessions[connection]? = some session ∧
          session.carriedOut? (system.run before).service
            ((system.run before).circumstances fresh now) inbound = some (command, response) := by
      rintro others rfl hrest
      obtain ⟨before, fresh, now, inbound, session, after, rfl, rfl, hfound⟩ := ih hrest
      exact ⟨step :: before, fresh, now, inbound, session, after, rfl, rfl, hfound⟩
    rcases List.append_eq_append_iff.1 h with ⟨others, hpast, hrest⟩ | ⟨others, hdeeds, hrest⟩
    · exact hlater others hpast hrest
    cases others with
    | nil => exact hlater [] (by simpa using hdeeds.symm) (by simpa using hrest.symm)
    | cons first others =>
      obtain ⟨rfl, -⟩ := List.cons.inj hrest
      obtain ⟨rfl, fresh, now, inbound, session, rfl, hfound⟩ := of_deeds_eq_append hdeeds
      exact ⟨[], fresh, now, inbound, session, rest, rfl, rfl, hfound⟩

/-- **What was delivered last shows what was found last.** In any run of a service, for every search
that a connection carries out: it is held back just if its result shows the same as what the
connection was shown last, though it is compared with the result before it; else the response shows
the result. Afterwards what the connection was shown last shows the same as the result. If the
catalog is that of a library of one collection, it is the result. -/
theorem search_shows_latest (service : Service) (steps : List Step) (past later : List Deed)
    (connection : Nat) (input : String) (response : Option Response)
    (h : history { service } steps =
      past ++ .carriedOut connection (.search input) response :: later) :
    let found := service.catalog.search input
    let shown := shownOn service.catalog connection past
    let after := shownOn service.catalog connection
      (past ++ [.carriedOut connection (.search input) response])
    (response = none ↔ Agree shown found) ∧
    (response = none ∨ response = some (Session.searchResponse service.catalog input)) ∧
    Agree after found ∧
    ∀ library collection, Catalog.ofLibrary library = .ok service.catalog →
      library.collections = [collection] → after = found := by
  intro found shown after
  obtain ⟨before, fresh, now, inbound, session, rest, -, hpast, hsession, hcarried⟩ :=
    exists_of_history h
  have hinformed : Informed service.catalog past (run { service } before) := by
    have hrun := (informed_start service).run before
    rwa [List.nil_append, hpast] at hrun
  have hagree := hinformed.agree connection session hsession
  have hanswer := Session.answer_of_carriedOut? hcarried
  rw [Session.answer_handle_search, hinformed.catalog_eq] at hanswer
  split at hanswer <;> rename_i hresults <;> cases hanswer
  · -- what is held back shows the same as what was found before, and that as what was shown
    have hsame : Agree shown found := hagree.trans (Searcher.sameResults_iff.1 hresults)
    have hafter : after = shown := shownOn_held_back
    refine ⟨iff_of_true rfl hsame, .inl rfl, hafter ▸ hsame, fun library collection h hone => ?_⟩
    rw [hafter]
    refine hsame.eq_of_pairs collection.key (fun path hpath => ?_) fun path hpath => ?_
    · obtain ⟨input, hfound⟩ := mem_shownOn hpath
      exact Catalog.eq_of_mem_search h hone hfound
    · exact Catalog.eq_of_mem_search h hone hpath
  · have hafter : after = found := shownOn_answered
    refine ⟨iff_of_false (by simp) fun hsame => hresults ?_, .inr rfl, ?_, fun _ _ _ _ => hafter⟩
    · exact Searcher.sameResults_iff.2 (hagree.symm.trans hsame)
    · rw [hafter]
      exact Searcher.agree_refl found

/-- The shelf is the only collection. The disc is shown for its track, and held back when it is found
again for its name. -/
theorem search_shows_latest_discs :
    let shelf : Library := ⟨[⟨"shelf", none, [⟨"disc", none, [], [Library.house.track "prelude"]⟩,
      ⟨"tape", none, [], [Library.house.track "aria"]⟩], []⟩], ∅, []⟩
    let now := ⟨⟨2024, 1, 1⟩, 0, 0, 0, by decide⟩
    let first := "\x7b\"Action\":\"SEARCH\",\"Data\":\x7b\"input\":\"prelude\"\x7d\x7d"
    let second := "\x7b\"Action\":\"SEARCH\",\"Data\":\x7b\"input\":\"disc\"\x7d\x7d"
    ∃ catalog, Catalog.ofLibrary shelf = .ok catalog ∧
    let past := [.carriedOut 0 (.search "prelude") (some (Session.searchResponse catalog "prelude"))]
    history { service := .start catalog "shelf" } [.connect, .receive 0 ⟨0⟩ now (.text first),
      .receive 0 ⟨0⟩ now (.text second), .receive 0 ⟨0⟩ now (.text first)] =
        past ++ .carriedOut 0 (.search "disc") none :: [.carriedOut 0 (.search "prelude") none] ∧
    Agree (shownOn catalog 0 past) (catalog.search "disc") ∧
    shownOn catalog 0 (past ++ [.carriedOut 0 (.search "disc") none]) = [["shelf", "disc"]] := by
  intro shelf now first second
  obtain ⟨catalog, hcatalog, hprelude, hdisc⟩ : ∃ catalog, Catalog.ofLibrary shelf = .ok catalog ∧
      catalog.search "prelude" = [["shelf", "disc"]] ∧ catalog.search "disc" = [["shelf", "disc"]] :=
    ⟨_, rfl, by decide +kernel, by decide +kernel⟩
  have hfirst : Command.ofText first = .ok (.search "prelude") := by
    simp only [first]
    decide +kernel
  have hsecond : Command.ofText second = .ok (.search "disc") := by
    simp only [second]
    decide +kernel
  refine ⟨catalog, hcatalog, ?_⟩
  intro past
  have hpast : history { service := .start catalog "shelf" } [.connect,
      .receive 0 ⟨0⟩ now (.text first), .receive 0 ⟨0⟩ now (.text second),
      .receive 0 ⟨0⟩ now (.text first)] =
        past ++ .carriedOut 0 (.search "disc") none :: [.carriedOut 0 (.search "prelude") none] := by
    simp [history, deeds, System.step, settle, report, Session.step, Session.settle,
      Session.carriedOut?, Session.handle, hfirst, hsecond, hprelude, hdisc, Searcher.search,
      Searcher.diff, Searcher.sameResults, Service.start, past, Session.searchResponse,
      Session.respond, Session.viewsJson, Protocol.Tag.name]
  have hshows := search_shows_latest (.start catalog "shelf") _ past _ 0 "disc" none hpast
  exact ⟨hpast, hshows.1.1 rfl, (hshows.2.2.2 shelf _ hcatalog rfl).trans hdisc⟩

end System

end Jukebox
