import Jukebox.System
import Jukebox.Proofs.Session

/-!
Who owns the players of a system. In whichever order connections are made, send frames and end,
every key that is registered is held by a connection that runs, and a connection that has ended
holds none.
-/

namespace Jukebox

open Protocol (Command)

namespace System

variable {system : System} {service : Service} {connection : Nat} {key : String} {player : Player}

/-- The key of the session of a connection that runs. -/
def keyOf (system : System) (connection : Nat) : Option String :=
  system.sessions[connection]?.map Session.playerKey

/-- **Registered players**: sessions are numbered as their connections, connections that have ended
have no session, and every registered key is the key of the session that owns it. -/
structure Registered (system : System) : Prop where
  session_id : ∀ (connection : Nat) (session : Session),
    system.sessions[connection]? = some session → session.id = connection ∧
      connection < system.connections
  ended_gone : ∀ (connection : Nat) (failure : Option Protocol.Failure),
    (connection, failure) ∈ system.ended → connection < system.connections ∧
      system.sessions[connection]? = none
  held : system.service.players.HeldBy system.keyOf

theorem Registered.keyOf_session (h : system.Registered) {session : Session}
    (hsession : system.sessions[connection]? = some session) :
    system.keyOf session.id = some session.playerKey := by
  rw [(h.session_id connection session hsession).1, keyOf, hsession]
  rfl

theorem registered_start (service : Service) :
    Registered { service := { service with players := ∅ } } :=
  ⟨by simp, by simp, fun key player hplayer => by simp at hplayer⟩

/-! ### One step -/

section

variable {turn : Session.Turn} {session after : Session}

/-- What a command meets that is sent to the system. -/
def circumstances (system : System) (fresh : Uuid) (now : Time.Instant) : Circumstances :=
  ⟨fresh, now, fun inbox => !system.muted.contains inbox⟩

theorem step_receive (hsession : system.sessions[connection]? = some session) (fresh : Uuid)
    (now : Time.Instant) (inbound : Session.Inbound) :
    system.step (.receive connection fresh now inbound) = system.settle connection
      (session.step system.service (system.circumstances fresh now) inbound) := by
  simp only [step, hsession]
  rfl

theorem service_settle (system : System) (connection : Nat) (turn : Session.Turn) :
    (system.settle connection turn).service = turn.service := by
  unfold settle
  dsimp only
  split <;> rfl

theorem Registered.settle_running (h : system.Registered)
    (hsession : system.sessions[connection]? = some session)
    (hstatus : turn.status = .running after) (hid : after.id = connection)
    (hheld : ∀ key player, turn.service.players[key]? = some player → key ≠ "" ∧
      (if connection = player.owner then some after.playerKey else system.keyOf player.owner) =
        some key) :
    (system.settle connection turn).Registered := by
  simp only [settle, hstatus, report]
  refine ⟨fun other found hfound => ?_, fun other failure hended => ?_, fun key player hplayer => ?_⟩
  · rw [Map.getElem?_insert] at hfound
    split at hfound
    · rename_i heq
      cases hfound
      exact heq ▸ ⟨hid, (h.session_id connection session hsession).2⟩
    · exact h.session_id other found hfound
  · obtain ⟨hlt, hgone⟩ := h.ended_gone other failure hended
    have hne : connection ≠ other := by
      rintro rfl
      rw [hsession] at hgone
      cases hgone
    exact ⟨hlt, by rw [Map.getElem?_insert, if_neg hne]; exact hgone⟩
  · obtain ⟨hne, hkey⟩ := hheld key player hplayer
    refine ⟨hne, ?_⟩
    rw [keyOf, Map.getElem?_insert, ← hkey]
    split <;> rfl

theorem Registered.settle_ended (h : system.Registered)
    (hsession : system.sessions[connection]? = some session) {failure : Option Protocol.Failure}
    (hstatus : turn.status = .ended failure)
    (hheld : ∀ (key : String) (player : Player), turn.service.players[key]? = some player →
      system.service.players[key]? = some player ∧ player.owner ≠ connection) :
    (system.settle connection turn).Registered := by
  simp only [settle, hstatus, report]
  refine ⟨fun other found hfound => ?_, fun other failure hended => ?_, fun key player hplayer => ?_⟩
  · rw [Map.getElem?_erase] at hfound
    split at hfound
    · cases hfound
    · exact h.session_id other found hfound
  · rw [Map.getElem?_erase]
    rcases List.mem_append.1 hended with hended | hended
    · obtain ⟨hlt, hgone⟩ := h.ended_gone other failure hended
      exact ⟨hlt, by rw [hgone, ite_self]⟩
    · cases List.mem_singleton.1 hended
      exact ⟨(h.session_id connection session hsession).2, if_pos rfl⟩
  · obtain ⟨hplayer, hne⟩ := hheld key player hplayer
    obtain ⟨hkey, hheldKey⟩ := h.held key player hplayer
    refine ⟨hkey, ?_⟩
    rw [keyOf, Map.getElem?_erase, if_neg (Ne.symm hne)]
    exact hheldKey

/-- What a session leaves keeps players registered, whichever of the three it does. -/
theorem Registered.settle (h : system.Registered)
    (hsession : system.sessions[connection]? = some session) {inbound : Session.Inbound}
    (hturn : session.Registers system.service inbound turn) :
    (system.settle connection turn).Registered := by
  have hid := (h.session_id connection session hsession).1
  have hkeyOf := h.keyOf_session hsession
  cases hturn with
  | rebinds frame key after _ _ hstatus hafter hkey hplayers =>
    refine h.settle_running hsession hstatus (hafter.trans hid) fun other player hplayer => ?_
    rw [hplayers, h.held.getElem?_bind hkeyOf] at hplayer
    rcases hplayer with ⟨inbox, hnext, rfl⟩ | ⟨-, hplayer, hne⟩
    · split at hnext
      · cases hnext
      · rename_i hnonempty
        cases hnext
        exact ⟨by simpa using hnonempty, by rw [if_pos hid.symm, hkey]⟩
    · rw [if_neg (hid ▸ Ne.symm hne)]
      exact h.held other player hplayer
  | keeps after hstatus hkeeps =>
    refine h.settle_running hsession hstatus (hkeeps.id_eq.trans hid) fun other player hplayer => ?_
    rw [hkeeps.players_eq] at hplayer
    obtain ⟨hne, hheld⟩ := h.held other player hplayer
    refine ⟨hne, ?_⟩
    split
    · rename_i howner
      rw [hkeeps.playerKey_eq, ← hkeyOf, hid, howner, hheld]
    · exact hheld
  | closes failure hstatus hplayers =>
    refine h.settle_ended hsession hstatus fun other player hplayer => ?_
    rw [hplayers, Session.getElem?_close h.held hkeyOf, hid] at hplayer
    exact hplayer

theorem Registered.connect (h : system.Registered) : (system.step .connect).Registered := by
  have hnew : system.sessions[system.connections]? = none := by
    by_contra hsome
    obtain ⟨session, hsession⟩ := Option.ne_none_iff_exists'.1 hsome
    exact Nat.lt_irrefl _ (h.session_id system.connections session hsession).2
  refine ⟨fun other found hfound => ?_, fun other failure hended => ?_, fun key player hplayer => ?_⟩
  · rw [step, Map.getElem?_insert] at hfound
    split at hfound
    · rename_i heq
      cases hfound
      exact ⟨heq, heq ▸ Nat.lt_succ_self _⟩
    · obtain ⟨hid, hlt⟩ := h.session_id other found hfound
      exact ⟨hid, Nat.lt_succ_of_lt hlt⟩
  · obtain ⟨hlt, hgone⟩ := h.ended_gone other failure hended
    refine ⟨Nat.lt_succ_of_lt hlt, ?_⟩
    rw [step, Map.getElem?_insert, if_neg (Nat.ne_of_gt hlt)]
    exact hgone
  · obtain ⟨hne, hheld⟩ := h.held key player hplayer
    refine ⟨hne, ?_⟩
    have hother : system.connections ≠ player.owner := by
      rintro heq
      rw [keyOf, ← heq, hnew] at hheld
      cases hheld
    rw [keyOf, step, Map.getElem?_insert, if_neg hother]
    exact hheld

theorem Registered.step (h : system.Registered) (step : Step) : (system.step step).Registered := by
  cases step with
  | connect => exact h.connect
  | receive connection fresh now inbound =>
    simp only [System.step]
    cases hsession : system.sessions[connection]? with
    | none => exact h
    | some session => exact h.settle hsession (session.registers_step _ _ inbound)
  | mute connection => exact ⟨h.session_id, h.ended_gone, h.held⟩
  | save => exact ⟨h.session_id, h.ended_gone, h.held⟩

theorem Registered.run (h : system.Registered) (steps : List Step) :
    (system.run steps).Registered := by
  induction steps generalizing system with
  | nil => exact h
  | cons step rest ih => exact ih (h.step step)

/-! ### Entries -/

/-- A player stays registered whatever step is taken, but for what its own connection does and for
another connection that takes the key over. -/
theorem Registered.stays_or_taken (h : system.Registered) (step : Step)
    (hplayer : system.service.players[key]? = some player) :
    (system.step step).service.players[key]? = some player ∨
    ∃ connection fresh now inbound, step = .receive connection fresh now inbound ∧
      (connection = player.owner ∨ ∃ frame, inbound = .text frame ∧
        Command.ofText frame = .ok (.key key) ∧
        ∃ inbox, (system.step step).service.players[key]? = some ⟨connection, inbox⟩) := by
  cases step with
  | connect => exact .inl hplayer
  | mute connection => exact .inl hplayer
  | save => exact .inl hplayer
  | receive connection fresh now inbound =>
    by_cases howner : connection = player.owner
    · exact .inr ⟨connection, fresh, now, inbound, rfl, .inl howner⟩
    simp only [System.step]
    cases hsession : system.sessions[connection]? with
    | none => exact .inl hplayer
    | some session =>
      have hid := (h.session_id connection session hsession).1
      have hkeyOf := h.keyOf_session hsession
      have hne : player.owner ≠ session.id := fun heq => howner (hid.symm.trans heq.symm)
      dsimp only
      rw [service_settle]
      cases session.registers_step system.service _ inbound with
      | rebinds frame key' after hframe hcommand _ _ _ hplayers =>
        rw [hplayers]
        by_cases htakes : key' = key ∧ key'.isEmpty = false
        · obtain ⟨rfl, hnonempty⟩ := htakes
          refine .inr ⟨connection, fresh, now, inbound, rfl, .inr ⟨frame, hframe, hcommand, ?_⟩⟩
          refine ⟨session.id, (h.held.getElem?_bind hkeyOf).2 (.inl ⟨session.id, ?_, by rw [hid]⟩)⟩
          simp [hnonempty]
        · refine .inl ((h.held.getElem?_bind hkeyOf).2 (.inr ⟨fun inbox hnext => ?_, hplayer, hne⟩))
          split at hnext
          · cases hnext
          · rename_i hnonempty
            cases hnext
            exact htakes ⟨rfl, by simpa using hnonempty⟩
      | keeps after _ hkeeps => exact .inl (hkeeps.players_eq ▸ hplayer)
      | closes failure _ hplayers =>
        exact .inl (hplayers ▸ (Session.getElem?_close h.held hkeyOf).2 ⟨hplayer, hne⟩)

end

/-- **Players are owned by running sessions.** After any run from no players, every registered key
is the key of the session that owns it, which has not ended. So no connection owns two keys, one
that has ended owns none, and no step of a connection takes off what another one owns: that stays,
or it is taken over. -/
theorem players_owned (service : Service) (steps : List Step) :
    let system := System.run { service := { service with players := ∅ } } steps
    (∀ (key : String) (player : Player), system.service.players[key]? = some player →
      key ≠ "" ∧ (∀ failure, (player.owner, failure) ∉ system.ended) ∧
      ∃ session, system.sessions[player.owner]? = some session ∧ session.playerKey = key) ∧
    (∀ (key other : String) (player holder : Player), system.service.players[key]? = some player →
      system.service.players[other]? = some holder → player.owner = holder.owner → key = other) ∧
    (∀ connection failure, (connection, failure) ∈ system.ended →
      ∀ (key : String) (player : Player), system.service.players[key]? = some player →
        player.owner ≠ connection) ∧
    ∀ (step : Step) (key : String) (player : Player), system.service.players[key]? = some player →
      (system.step step).service.players[key]? = some player ∨
      ∃ connection fresh now inbound, step = .receive connection fresh now inbound ∧
        (connection = player.owner ∨ ∃ frame, inbound = .text frame ∧
          Command.ofText frame = .ok (.key key) ∧
          ∃ inbox, (system.step step).service.players[key]? = some ⟨connection, inbox⟩) := by
  intro system
  have h : system.Registered := (registered_start service).run steps
  have hsession : ∀ (key : String) (player : Player), system.service.players[key]? = some player →
      ∃ session, system.sessions[player.owner]? = some session ∧ session.playerKey = key :=
    fun key player hplayer => Option.map_eq_some_iff.1 (h.held key player hplayer).2
  have hended : ∀ (key : String) (player : Player), system.service.players[key]? = some player →
      ∀ failure, (player.owner, failure) ∉ system.ended := by
    intro key player hplayer failure hended
    obtain ⟨session, hrunning, -⟩ := hsession key player hplayer
    rw [(h.ended_gone player.owner failure hended).2] at hrunning
    cases hrunning
  refine ⟨fun key player hplayer => ⟨(h.held key player hplayer).1, hended key player hplayer,
    hsession key player hplayer⟩, ?_, ?_, fun step key player => h.stays_or_taken step⟩
  · intro key other player holder hplayer hholder howner
    have hkey := (h.held key player hplayer).2
    rw [howner, (h.held other holder hholder).2] at hkey
    exact (Option.some.inj hkey).symm
  · rintro connection failure hgone key player hplayer rfl
    exact hended key player hplayer failure hgone

/-- A key that another connection has taken over stays when its first owner ends. -/
example : (System.run { service := .start (.ofGroups ∅) "music" }
    (let frame := .text "\x7b\"Action\":\"KEY\",\"Data\":\x7b\"key\":\"hall\"\x7d\x7d"
     let now := ⟨⟨2024, 1, 1⟩, 0, 0, 0, by decide⟩
     [.connect, .connect, .receive 0 ⟨0⟩ now frame, .receive 1 ⟨0⟩ now frame,
      .receive 0 ⟨0⟩ now .finish])).service.players.toList = [("hall", ⟨1, 1⟩)] := by
  decide +kernel

end System

end Jukebox
