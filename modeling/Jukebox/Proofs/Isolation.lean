import Jukebox.Proofs.Cursor.Run
import Jukebox.Proofs.Playlist.Failure
import Jukebox.Proofs.Session.Answer
import Jukebox.Proofs.System

/-!
Failures are isolated. A command that fails leaves nothing behind but, perhaps, the name of a
playlist without items, and no later command of anyone can tell such a name from one that is not
stored. So to all other connections it is as if the one that failed had left of its own accord.
-/

namespace Jukebox

open Protocol (Command Failure)

/-! ### Playlists -/

namespace Playlist.Store

variable {store other : Store}

/-- The stores hold the same playlists under all names. One without items may be stored or not. -/
def Resembles (store other : Store) : Prop := ∀ name, store.playlist name = other.playlist name

theorem Resembles.edit (h : store.Resembles other) (name : String)
    (change : Playlist → Except Error Playlist) :
    (store.edit name change).answer = (other.edit name change).answer ∧
    (store.edit name change).events = (other.edit name change).events ∧
    (store.edit name change).store.Resembles (other.edit name change).store := by
  have hinsert : ∀ playlist, Resembles (store.insert name playlist) (other.insert name playlist) := by
    intro playlist found
    rw [playlist_insert, playlist_insert, h found]
  unfold Store.edit
  dsimp only
  rw [h name]
  cases change (other.playlist name) with
  | error e => exact ⟨rfl, rfl, hinsert _⟩
  | ok changed => exact ⟨rfl, rfl, hinsert _⟩

theorem Resembles.editWith (h : store.Resembles other) (catalog : Catalog) (fresh : Uuid)
    (name : String) (path : Path) (change : Playlist → Item → Playlist) :
    (store.editWith catalog fresh name path change).answer =
      (other.editWith catalog fresh name path change).answer ∧
    (store.editWith catalog fresh name path change).events =
      (other.editWith catalog fresh name path change).events ∧
    (store.editWith catalog fresh name path change).store.Resembles
      (other.editWith catalog fresh name path change).store := by
  unfold Store.editWith
  cases Item.expand catalog fresh path with
  | error e => exact ⟨rfl, rfl, h⟩
  | ok item => exact h.edit name _

/-- No action tells stores apart that hold the same playlists. -/
theorem Resembles.apply (h : store.Resembles other) (catalog : Catalog) (fresh : Uuid)
    (name : String) (action : Action) :
    (store.apply catalog fresh name action).answer =
      (other.apply catalog fresh name action).answer ∧
    (store.apply catalog fresh name action).events =
      (other.apply catalog fresh name action).events ∧
    (store.apply catalog fresh name action).store.Resembles
      (other.apply catalog fresh name action).store := by
  unfold Store.apply
  split
  · exact ⟨rfl, rfl, h⟩
  cases action with
  | fetch => exact ⟨by simp [get, h name], rfl, h⟩
  | append path | playNow path => exact h.editWith catalog fresh name path _
  | remove index path | playItem index path => exact h.edit name _
  | next | prev | clear => exact h.edit name _

end Playlist.Store

/-! ### Services -/

namespace Service

/-- The services are the same, but for playlists without items that are stored in one of them. -/
def Resembles (service other : Service) : Prop :=
  ∃ playlists : Playlist.Store, other = { service with playlists } ∧
    service.playlists.Resembles playlists

theorem Resembles.refl (service : Service) : service.Resembles service :=
  ⟨service.playlists, rfl, fun _ => rfl⟩

end Service

/-! ### Commands -/

namespace Session

variable {session : Session} {service other : Service} {circumstances : Circumstances}
  {command : Command} {failure : Failure}

/-- No command tells services apart that resemble each other. -/
theorem resembles_handle (h : service.Resembles other) (session : Session)
    (circumstances : Circumstances) (command : Command) :
    let effect := session.handle service circumstances command
    let effectOther := session.handle other circumstances command
    effect.session = effectOther.session ∧ effect.answer = effectOther.answer ∧
    effect.pushed = effectOther.pushed ∧ effect.events = effectOther.events ∧
    effect.service.Resembles effectOther.service := by
  obtain ⟨playlists, rfl, hplaylists⟩ := h
  cases command with
  | playlist name action =>
    obtain ⟨hanswer, hevents, hstore⟩ :=
      hplaylists.apply service.catalog circumstances.fresh name action
    refine ⟨rfl, ?_, rfl, hevents, _, rfl, hstore⟩
    simp only [handle, Service.applyPlaylist, hanswer]
  | cursor name action =>
    have hplayed : service.playlists.currentPath? name = playlists.currentPath? name := by
      rw [Playlist.Store.currentPath?, hplaylists name]
      rfl
    have happly : Service.applyCursor { service with playlists } name action =
        { service.applyCursor name action with
          store := { (service.applyCursor name action).store with playlists } } := by
      simp only [Service.applyCursor, hplayed]
    simp only [handle, happly]
    exact ⟨trivial, trivial, trivial, trivial, playlists, rfl, hplaylists⟩
  | forward key action =>
    simp only [handle]
    split <;> exact ⟨rfl, rfl, rfl, rfl, playlists, rfl, hplaylists⟩
  | setFlag list path value =>
    cases list <;> exact ⟨rfl, rfl, rfl, rfl, playlists, rfl, hplaylists⟩
  | _ => exact ⟨rfl, rfl, rfl, rfl, playlists, rfl, hplaylists⟩

/-- A command that fails reports nothing and leaves a service that resembles the one before. -/
theorem handle_of_error (h : (session.handle service circumstances command).answer = .error failure) :
    (session.handle service circumstances command).session = session ∧
    (session.handle service circumstances command).events = [] ∧
    service.Resembles (session.handle service circumstances command).service := by
  have hsame := Service.Resembles.refl service
  cases command with
  | key | recordPlay | setFlag => cases h
  | players | fetchPathList => cases h
  | search input =>
    simp only [handle] at h
    split at h <;> cases h
  | forward key action =>
    simp only [handle] at h ⊢
    split at h
    · cases h
    · exact ⟨rfl, rfl, hsame⟩
  | fetch | filterList | filterPaths => exact ⟨rfl, rfl, hsame⟩
  | playlist name action =>
    cases hanswer : (service.playlists.apply service.catalog circumstances.fresh name action).answer with
    | ok snapshot => simp [handle, Service.applyPlaylist, hanswer, respondWith, respond, Except.map] at h
    | error error =>
      have hevents := (Playlist.Store.apply_of_error hanswer).2
      refine ⟨rfl, hevents, _, rfl, fun other => ?_⟩
      exact (Playlist.Store.playlist_apply hevents other).symm
  | cursor name action =>
    rcases Cursor.Store.apply_cases service.cursors service.catalog service.anchor
      (service.playlists.currentPath? name) name action with
      ⟨error, happly⟩ | ⟨-, -, snapshot, -, happly⟩ | ⟨-, -, moved, snapshot, -, -, happly⟩
    · have heffect : session.handle service circumstances (.cursor name action) =
          { service, session, answer := .error error } := by
        simp [handle, Service.applyCursor, happly, respondWith, Except.map]
      rw [heffect]
      exact ⟨rfl, rfl, hsame⟩
    all_goals simp [handle, Service.applyCursor, happly, respondWith, respond, Except.map] at h

/-! ### Turns -/

/-- Why decoding or carrying out what comes next fails. -/
def failure? (session : Session) (service : Service) (circumstances : Circumstances) :
    Inbound → Option Failure
  | .text frame =>
    match Command.ofText frame with
    | .ok command =>
      match (session.handle service circumstances command).answer with
      | .ok _ => none
      | .error failure => some failure
    | .error failure => some failure
  | .failure reason => some reason
  | .finish => none

/-- The turns end or go on alike, send and report the same, and leave services that resemble each
other. -/
structure Turn.Resembles (turn other : Turn) : Prop where
  service : turn.service.Resembles other.service
  status_eq : turn.status = other.status
  sent_eq : turn.sent = other.sent
  events_eq : turn.events = other.events

theorem resembles_close (h : service.Resembles other) (session : Session) :
    (session.close service).Resembles (session.close other) := by
  obtain ⟨playlists, rfl, hplaylists⟩ := h
  unfold close
  split <;> exact ⟨playlists, rfl, hplaylists⟩

theorem resembles_finish (h : service.Resembles other) (session : Session)
    (failure : Option Failure) :
    (session.finish service failure).Resembles (session.finish other failure) :=
  ⟨resembles_close h session, rfl, rfl, rfl⟩

theorem resembles_step (h : service.Resembles other) (session : Session)
    (circumstances : Circumstances) (inbound : Inbound) :
    (session.step service circumstances inbound).Resembles
      (session.step other circumstances inbound) := by
  cases inbound with
  | failure reason => exact resembles_finish h session _
  | finish => exact resembles_finish h session _
  | text frame =>
    simp only [step]
    cases Command.ofText frame with
    | error failure => exact resembles_finish h session _
    | ok command =>
      obtain ⟨hsession, hanswer, hpushed, hevents, hservice⟩ :=
        resembles_handle h session circumstances command
      simp only [settle, hsession, hanswer, hpushed, hevents]
      split
      · exact ⟨hservice, rfl, rfl, rfl⟩
      · split
        · exact ⟨hservice, rfl, rfl, rfl⟩
        · exact ⟨resembles_close hservice _, rfl, rfl, rfl⟩
      · exact ⟨resembles_close hservice _, rfl, rfl, rfl⟩

/-- **A failure ends the session like a farewell**, at most with the name of a playlist left. -/
theorem step_of_failure? {inbound : Inbound}
    (h : session.failure? service circumstances inbound = some failure) :
    ∃ later, service.Resembles later ∧
      session.step service circumstances inbound = session.finish later (some failure) := by
  cases inbound with
  | finish => cases h
  | failure reason =>
    cases h
    exact ⟨service, .refl service, rfl⟩
  | text frame =>
    simp only [failure?] at h
    split at h
    · rename_i command hcommand
      split at h
      · cases h
      · rename_i refusal hanswer
        cases h
        obtain ⟨hsession, hevents, hservice⟩ := handle_of_error hanswer
        refine ⟨_, hservice, ?_⟩
        simp only [step, hcommand, settle, hanswer, hsession, hevents, pushed_of_error hanswer]
        rfl
    · rename_i refusal hcommand
      cases h
      exact ⟨service, .refl service, step_of_error hcommand⟩

end Session

/-! ### Systems -/

namespace System

variable {system other : System} {connection : Nat} {session : Session} {failure : Failure}

/-- The step is one of a connection. -/
def Step.isOf (connection : Nat) : Step → Bool
  | receive other .. => other = connection
  | _ => false

/-- The systems are the same to all connections but one, which may have ended otherwise. -/
structure Resembles (connection : Nat) (system other : System) : Prop where
  service : system.service.Resembles other.service
  sessions_eq : system.sessions = other.sessions
  connections_eq : system.connections = other.connections
  muted_eq : system.muted = other.muted
  sent_eq : system.sent = other.sent
  events_eq : system.events = other.events
  ended_eq : system.ended.filter (·.1 ≠ connection) = other.ended.filter (·.1 ≠ connection)

theorem Resembles.settle (h : system.Resembles connection other) {turn turnOther : Session.Turn}
    (hturn : turn.Resembles turnOther) (number : Nat) :
    (system.settle number turn).Resembles connection (other.settle number turnOther) := by
  unfold System.settle report
  rw [← hturn.status_eq]
  dsimp only
  split <;> constructor <;> simp only [h.sessions_eq, h.connections_eq, h.muted_eq, h.sent_eq,
    h.events_eq, h.ended_eq, hturn.service, hturn.sent_eq, hturn.events_eq, List.filter_append]

theorem Resembles.step (h : system.Resembles connection other) (step : Step) :
    (system.step step).Resembles connection (other.step step) := by
  cases step with
  | connect =>
    refine ⟨h.service, ?_, ?_, h.muted_eq, h.sent_eq, h.events_eq, h.ended_eq⟩
    · simp only [System.step, h.sessions_eq, h.connections_eq]
    · simp only [System.step, h.connections_eq]
  | mute number =>
    refine ⟨h.service, h.sessions_eq, h.connections_eq, ?_, h.sent_eq, h.events_eq, h.ended_eq⟩
    simp only [System.step, h.muted_eq]
  | save => exact ⟨h.service, h.sessions_eq, h.connections_eq, h.muted_eq, h.sent_eq, h.events_eq,
      h.ended_eq⟩
  | receive number fresh now inbound =>
    simp only [System.step, ← h.sessions_eq, ← h.muted_eq]
    cases system.sessions[number]? with
    | none => exact h
    | some session => exact h.settle (Session.resembles_step h.service session _ inbound) number

theorem Resembles.run (h : system.Resembles connection other) (steps : List Step) :
    (system.run steps).Resembles connection (other.run steps) := by
  induction steps generalizing system other with
  | nil => exact h
  | cons step rest ih => exact ih (h.step step)

/-- Two ends of one connection are the same to all others, however it ends. -/
theorem resembles_settle_finish {service later : Service} (h : service.Resembles later)
    (system : System) (connection : Nat) (session : Session) (reason other : Option Failure) :
    (system.settle connection (session.finish service reason)).Resembles connection
      (system.settle connection (session.finish later other)) := by
  refine ⟨Session.resembles_close h session, rfl, rfl, rfl, rfl, rfl, ?_⟩
  simp [System.settle, Session.finish, report, List.filter_append]

/-! ### Connections that have ended -/

theorem mem_ended_step {ending : Nat × Option Failure} (h : ending ∈ system.ended) (step : Step) :
    ending ∈ (system.step step).ended := by
  cases step with
  | connect | mute | save => exact h
  | receive number fresh now inbound =>
    simp only [System.step]
    cases system.sessions[number]? with
    | none => exact h
    | some session =>
      simp only [System.settle, report]
      split
      · exact h
      · exact List.mem_append_left _ h

/-- What is sent on a connection that has ended has no effect. -/
theorem Registered.step_of_ended (h : system.Registered) {ending : Nat × Option Failure}
    (hended : ending ∈ system.ended) {step : Step} (hof : step.isOf ending.1 = true) :
    system.step step = system := by
  cases step with
  | connect | mute | save => cases hof
  | receive number fresh now inbound =>
    have hnumber : number = ending.1 := by simpa [Step.isOf] using hof
    simp only [System.step, hnumber, (h.ended_gone ending.1 ending.2 hended).2]

theorem Registered.run_of_ended (h : system.Registered) {ending : Nat × Option Failure}
    (hended : ending ∈ system.ended) (steps : List Step) :
    system.run steps = system.run (steps.filter fun step => !step.isOf ending.1) := by
  induction steps generalizing system with
  | nil => rfl
  | cons step rest ih =>
    have hrest := ih (h.step step) (mem_ended_step hended step)
    by_cases hof : step.isOf ending.1 = true
    · rw [List.filter_cons_of_neg (by simp [hof])]
      rw [h.step_of_ended hended hof] at hrest
      rw [System.run, List.foldl_cons, h.step_of_ended hended hof]
      exact hrest
    · rw [List.filter_cons_of_pos (by simpa using hof)]
      exact hrest

/-- **Failures are isolated.** In any system that is reached from no players, let what a connection
sends next fail to be read as a command, or to be carried out. Then it is answered by nothing, it
reports nothing and its failure ends the connection, and what was sent after it on the connection has
no effect. Whatever happens then, all connections are sent the same, the same is reported and the
others end in the same way as if the connection had left instead. -/
theorem failure_isolated (service : Service) (past : List Step) (connection : Nat)
    (session : Session) (fresh freshLeft : Uuid) (now nowLeft : Time.Instant)
    (inbound : Session.Inbound) (failure : Failure) :
    let system := System.run { service := { service with players := ∅ } } past
    let failed := system.step (.receive connection fresh now inbound)
    let left := system.step (.receive connection freshLeft nowLeft .finish)
    system.sessions[connection]? = some session →
    session.failure? system.service (system.circumstances fresh now) inbound = some failure →
    failed.sent = system.sent ∧ failed.events = system.events ∧
    failed.ended = system.ended ++ [(connection, some failure)] ∧
    ∀ future : List Step,
      failed.run future = failed.run (future.filter fun step => !step.isOf connection) ∧
      (failed.run future).sent = (left.run future).sent ∧
      (failed.run future).events = (left.run future).events ∧
      (failed.run future).ended.filter (·.1 ≠ connection) =
        (left.run future).ended.filter (·.1 ≠ connection) := by
  intro system failed left hsession hfailure
  have hregistered : failed.Registered := ((registered_start service).run past).step _
  obtain ⟨later, hlater, hstep⟩ := Session.step_of_failure? hfailure
  have hfailed : failed = system.settle connection (session.finish later (some failure)) := by
    rw [← hstep]
    exact step_receive hsession fresh now inbound
  have hleft : left = system.settle connection (session.finish system.service none) :=
    step_receive hsession freshLeft nowLeft .finish
  have hended : failed.ended = system.ended ++ [(connection, some failure)] := by
    rw [hfailed]
    rfl
  refine ⟨?_, ?_, hended, fun future => ?_⟩
  · rw [hfailed]
    exact List.append_nil system.sent
  · rw [hfailed]
    exact List.append_nil system.events
  · have halike : left.Resembles connection failed := by
      rw [hfailed, hleft]
      exact resembles_settle_finish hlater system connection session _ _
    have hrun := halike.run future
    have hmem : (connection, some failure) ∈ failed.ended := by simp [hended]
    exact ⟨hregistered.run_of_ended hmem future, hrun.sent_eq.symm, hrun.events_eq.symm,
      hrun.ended_eq.symm⟩

/-- Who looks for an item in vain leaves a name behind, which no other connection sees. -/
theorem failure_isolated_den :
    let now := ⟨⟨2024, 1, 1⟩, 0, 0, 0, by decide⟩
    let remove := "\x7b\"Action\":\"PLAYLIST\",\"Data\":" ++
      "\x7b\"name\":\"den\",\"action\":\"REMOVE\",\"path\":[]\x7d\x7d"
    let fetch := "\x7b\"Action\":\"PLAYLIST\",\"Data\":" ++
      "\x7b\"name\":\"den\",\"action\":\"FETCH\"\x7d\x7d"
    let system := System.run { service := .start (.ofGroups ∅) "music" } [.connect]
    let failed := system.step (.receive 0 ⟨0⟩ now (.text remove))
    let left := system.step (.receive 0 ⟨0⟩ now .finish)
    let future := [.connect, .receive 1 ⟨1⟩ now (.text fetch)]
    failed.ended = [(0, some (.refused (.unknownItem 0)))] ∧ "den" ∈ failed.service.playlists ∧
    (failed.run future).sent = (left.run future).sent := by
  intro now remove fetch system failed left future
  have hremove : Command.ofText remove = .ok (.playlist "den" (.remove 0 [])) := by
    simp only [remove]
    decide +kernel
  have hsession : system.sessions[0]? = some { id := 0 } := rfl
  have hfailure : Session.failure? { id := 0 } system.service (system.circumstances ⟨0⟩ now)
      (.text remove) = some (.refused (.unknownItem 0)) := by
    simp only [Session.failure?, hremove]
    rfl
  have hden : "den" ∈ failed.service.playlists := by
    simp only [failed, step_receive hsession, service_settle, Session.step, hremove]
    decide
  obtain ⟨-, -, hended, hfuture⟩ := failure_isolated (.start (.ofGroups ∅) "music")
    [.connect] 0 { id := 0 } ⟨0⟩ ⟨0⟩ now now (.text remove) _ hsession hfailure
  exact ⟨hended, hden, (hfuture future).2.1⟩

end System

end Jukebox
