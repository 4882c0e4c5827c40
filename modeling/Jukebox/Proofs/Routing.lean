import Jukebox.Proofs.Session.Answer
import Jukebox.Proofs.System

/-!
Who is sent what. Each connection gets the answers to its own commands, in their order, and beside
them only what is passed on to the player that it is. The player of a key is told from the history
of what all connections did: it is the connection that bound the key last, as long as it binds no
other key and does not end.
-/

namespace Jukebox

open Protocol (Command Envelope Response Tag)

/-! ### Histories -/

/-- What a connection did: it carried out a command, with its response, or it ended. -/
inductive Deed where
  | carriedOut (connection : Nat) (command : Command) (response : Option Response)
  | ended (connection : Nat)

namespace Deed

/-- The connection binds the key. -/
def Binds (connection : Nat) (key : String) : Deed → Prop
  | carriedOut other (.key bound) _ => other = connection ∧ bound = key
  | _ => False

/-- The connection is no longer the one that a key was bound by: it binds a key anew or ends, or
the key is bound by another one. -/
def Unbinds (connection : Nat) (key : String) : Deed → Prop
  | carriedOut other (.key bound) _ => other = connection ∨ bound = key
  | carriedOut .. => False
  | ended other => other = connection

/-- The response that the connection gets. -/
def responseOn? (connection : Nat) : Deed → Option Response
  | carriedOut other _ response => if other = connection then response else none
  | ended _ => none

end Deed

/-- The connection was the latest to bind the key, which is not empty, and has neither bound a key
again nor ended since. -/
def Holds (history : List Deed) (connection : Nat) (key : String) : Prop :=
  key ≠ "" ∧ ∃ before deed after, history = before ++ deed :: after ∧ deed.Binds connection key ∧
    ∀ later ∈ after, ¬ later.Unbinds connection key

variable {past : List Deed} {deed : Deed} {connection holder : Nat} {key bound : String}
  {command : Command} {response : Option Response}

theorem not_holds_nil : ¬ Holds [] connection key := by
  rintro ⟨-, before, deed, after, heq, -⟩
  simp at heq

/-- Who holds a key is told from the last deed and from who held it before. -/
theorem holds_concat : Holds (past ++ [deed]) connection key ↔
    (key ≠ "" ∧ deed.Binds connection key) ∨
    (Holds past connection key ∧ ¬ deed.Unbinds connection key) := by
  constructor
  · rintro ⟨hkey, before, bind, after, heq, hbinds, hkeeps⟩
    -- the last deed is the one that binds the key, or it comes after that one
    rcases List.eq_nil_or_concat after with rfl | ⟨init, last, rfl⟩
    · obtain ⟨rfl, hdeed⟩ := List.append_inj' heq rfl
      cases hdeed
      exact .inl ⟨hkey, hbinds⟩
    · have hsplit : past ++ [deed] = (before ++ bind :: init) ++ [last] := by simpa using heq
      obtain ⟨rfl, hdeed⟩ := List.append_inj' hsplit rfl
      cases hdeed
      refine .inr ⟨⟨hkey, before, bind, init, rfl, hbinds, ?_⟩, hkeeps deed (by simp)⟩
      intro later hlater
      exact hkeeps later (by simp [hlater])
  · rintro (⟨hkey, hbinds⟩ | ⟨⟨hkey, before, bind, after, rfl, hbinds, hkeeps⟩, hdeed⟩)
    · exact ⟨hkey, past, deed, [], rfl, hbinds, by simp⟩
    · refine ⟨hkey, before, bind, after ++ [deed], by simp, hbinds, ?_⟩
      intro later hlater
      rcases List.mem_append.1 hlater with hlater | hlater
      · exact hkeeps later hlater
      · cases List.mem_singleton.1 hlater
        exact hdeed

theorem holds_concat_key :
    Holds (past ++ [.carriedOut connection (.key bound) response]) holder key ↔
    (bound = key ∧ key ≠ "" ∧ connection = holder) ∨
    (Holds past holder key ∧ connection ≠ holder ∧ bound ≠ key) := by
  simp only [holds_concat, Deed.Binds, Deed.Unbinds, not_or]
  tauto

theorem holds_concat_command (h : ∀ key, command ≠ .key key) :
    Holds (past ++ [.carriedOut connection command response]) holder key ↔
      Holds past holder key := by
  rw [holds_concat]
  cases command with
  | key key => exact absurd rfl (h key)
  | _ => simp [Deed.Binds, Deed.Unbinds]

theorem holds_concat_ended : Holds (past ++ [.ended connection]) holder key ↔
    Holds past holder key ∧ connection ≠ holder := by
  simp [holds_concat, Deed.Binds, Deed.Unbinds]

namespace System

/-- What a connection does in a step. -/
def deeds (system : System) (step : Step) : List Deed :=
  match step with
  | .receive connection fresh now inbound =>
    match system.sessions[connection]? with
    | none => []
    | some session =>
      let carriedOut := match session.carriedOut? system.service (system.circumstances fresh now)
          inbound with
        | some (command, response) => [.carriedOut connection command response]
        | none => []
      carriedOut ++ if connection ∈ (system.step step).sessions then [] else [.ended connection]
  | _ => []

/-- What the connections do in a run. -/
def history (system : System) : List Step → List Deed
  | [] => []
  | step :: rest => system.deeds step ++ (system.step step).history rest

/-- What is sent, if it is sent to the connection and is not meant for the player that it is. -/
def answerOn? (connection : Nat) (sent : Nat × Response) : Option Response :=
  if sent.1 = connection ∧ sent.2.action ≠ "CTRL" then some sent.2 else none

/-- The messages that were sent to a connection and are not meant for the player that it is. -/
def answersOn (system : System) (connection : Nat) : List Response :=
  system.sent.filterMap (answerOn? connection)

/-! ### One step -/

section

variable {system : System} {session after : Session} {turn : Session.Turn} {fresh : Uuid}
  {now : Time.Instant} {inbound : Session.Inbound} {failure : Option Protocol.Failure}

theorem sent_settle (system : System) (connection : Nat) (turn : Session.Turn) :
    (system.settle connection turn).sent = system.sent ++ turn.sent := by
  unfold settle
  dsimp only
  split <;> rfl

theorem muted_settle (system : System) (connection : Nat) (turn : Session.Turn) :
    (system.settle connection turn).muted = system.muted := by
  unfold settle
  dsimp only
  split <;> rfl

theorem mem_sessions_settle (hstatus : turn.status = .running after) :
    connection ∈ (system.settle connection turn).sessions := by
  simp [settle, hstatus]

theorem not_mem_sessions_settle (hstatus : turn.status = .ended failure) :
    connection ∉ (system.settle connection turn).sessions := by
  simp [settle, hstatus]

theorem ended_settle (hstatus : turn.status = .ended failure) :
    (system.settle connection turn).ended = system.ended ++ [(connection, failure)] := by
  simp [settle, hstatus, report]

/-! ### Systems and their past -/

/-- **The past tells what was sent and who the players are**: every player is the connection that
holds its key, every command was answered as it has to be, and every connection was sent its own
answers. -/
structure Traced (past : List Deed) (system : System) : Prop where
  registered : system.Registered
  muted_eq : system.muted = ∅
  held_iff : ∀ (key : String) (player : Player), system.service.players[key]? = some player ↔
    player.inbox = player.owner ∧ Holds past player.owner key
  answered : ∀ connection command response, .carriedOut connection command response ∈ past →
    command.AnsweredBy response
  answersOn_eq : ∀ connection,
    system.answersOn connection = past.filterMap (Deed.responseOn? connection)

theorem traced_start (service : Service) :
    Traced [] { service := { service with players := ∅ } } := by
  refine ⟨registered_start service, rfl, ?_, by simp, fun connection => rfl⟩
  intro key player
  simp [not_holds_nil]

theorem Traced.sends (h : Traced past system) (session : Session) (fresh : Uuid)
    (now : Time.Instant) (inbound : Session.Inbound) :
    session.Sends system.service (system.circumstances fresh now) inbound
      (session.step system.service (system.circumstances fresh now) inbound) := by
  refine session.sends_step ?_ inbound
  intro inbox
  simp [circumstances, h.muted_eq]

theorem next_eq_some_iff {owner inbox : Nat} :
    (if bound.isEmpty then none else some (bound, owner)) = some (key, inbox) ↔
      key ≠ "" ∧ bound = key ∧ owner = inbox := by
  split
  · rename_i hempty
    have hbound : bound = "" := by simpa using hempty
    subst hbound
    constructor
    · rintro ⟨⟩
    · rintro ⟨hne, rfl, -⟩
      exact absurd rfl hne
  · rename_i hnonempty
    have hbound : bound ≠ "" := by simpa using hnonempty
    simp only [Option.some.injEq, Prod.mk.injEq]
    constructor
    · rintro ⟨rfl, rfl⟩
      exact ⟨hbound, rfl, rfl⟩
    · rintro ⟨-, rfl, rfl⟩
      exact ⟨rfl, rfl⟩

theorem Traced.held_answer (h : Traced past system)
    (hsession : system.sessions[connection]? = some session) (key : String) (player : Player) :
    (session.handle system.service (system.circumstances fresh now) command).service.players[key]? =
      some player ↔ player.inbox = player.owner ∧
        Holds (past ++ [.carriedOut connection command response]) player.owner key := by
  by_cases hkey : ∃ bound, command = .key bound
  · -- the session gives up the key it had and takes the new one from whoever held it
    obtain ⟨bound, rfl⟩ := hkey
    have hid := (h.registered.session_id connection session hsession).1
    have hkeyOf := h.registered.keyOf_session hsession
    rw [hid] at hkeyOf
    simp only [Session.handle, h.registered.held.getElem?_bind hkeyOf, h.held_iff, ne_eq,
      next_eq_some_iff, hid, holds_concat_key]
    obtain ⟨owner, inbox⟩ := player
    constructor
    · rintro (⟨_, ⟨hne, hbound, rfl⟩, hplayer⟩ | ⟨hnext, ⟨hinbox, hholds⟩, howner⟩)
      · cases hplayer
        exact ⟨rfl, .inl ⟨hbound, hne, rfl⟩⟩
      · have hbound : bound ≠ key := fun hbound => hnext connection ⟨hholds.1, hbound, rfl⟩
        exact ⟨hinbox, .inr ⟨hholds, Ne.symm howner, hbound⟩⟩
    · rintro ⟨hinbox, ⟨hbound, hne, rfl⟩ | ⟨hholds, howner, hbound⟩⟩
      · cases hinbox
        exact .inl ⟨connection, ⟨hne, hbound, rfl⟩, rfl⟩
      · refine .inr ⟨?_, ⟨hinbox, hholds⟩, Ne.symm howner⟩
        rintro _ ⟨-, heq, -⟩
        exact hbound heq
  · have hother : ∀ bound, command ≠ .key bound := fun bound heq => hkey ⟨bound, heq⟩
    have hkeeps := @Session.keeps_handle session system.service (system.circumstances fresh now)
      command hother
    rw [hkeeps.players_eq, holds_concat_command hother, h.held_iff]

theorem Traced.held_close (h : Traced past system)
    (hsession : system.sessions[connection]? = some session) (key : String) (player : Player) :
    (session.close system.service).players[key]? = some player ↔ player.inbox = player.owner ∧
      Holds (past ++ [.ended connection]) player.owner key := by
  have hid := (h.registered.session_id connection session hsession).1
  have hkeyOf := h.registered.keyOf_session hsession
  rw [Session.getElem?_close h.registered.held hkeyOf, hid, h.held_iff, holds_concat_ended,
    and_assoc, @ne_comm _ connection]

theorem answersOn_of_sent {later : System} {messages : List (Nat × Response)}
    (h : later.sent = system.sent ++ messages) (connection : Nat) :
    later.answersOn connection =
      system.answersOn connection ++ messages.filterMap (answerOn? connection) := by
  rw [answersOn, answersOn, h, List.filterMap_append]

/-- What is pushed is no answer, and a response is an answer to its own connection. -/
theorem filterMap_answers {pushed : List (Nat × Response)}
    (hpushed : ∀ push ∈ pushed, push.2.action = "CTRL") (hanswered : command.AnsweredBy response)
    (connection other : Nat) :
    (pushed ++ response.toList.map fun message => (connection, message)).filterMap
        (answerOn? other) =
      [Deed.carriedOut connection command response].filterMap (Deed.responseOn? other) := by
  have hnone : pushed.filterMap (answerOn? other) = [] := by
    rw [List.filterMap_eq_nil_iff]
    intro push hpush
    simp [answerOn?, hpushed push hpush]
  rw [List.filterMap_append, hnone, List.nil_append]
  cases response with
  | none => simp [Deed.responseOn?]
  | some message =>
    have haction : message.action ≠ "CTRL" := by
      rw [hanswered.1 message rfl]
      exact command.tag.name_ne_control
    by_cases hother : connection = other
    · simp [answerOn?, Deed.responseOn?, hother, haction]
    · simp [answerOn?, Deed.responseOn?, hother]

theorem Traced.answer (h : Traced past system)
    (hsession : system.sessions[connection]? = some session)
    (hanswer : (session.handle system.service (system.circumstances fresh now) command).answer =
      .ok response)
    (hservice : turn.service =
      (session.handle system.service (system.circumstances fresh now) command).service)
    (hsent : turn.sent =
      (session.handle system.service (system.circumstances fresh now) command).pushed ++
        response.toList.map fun message => (session.id, message))
    (hregistered : (system.settle connection turn).Registered) :
    Traced (past ++ [.carriedOut connection command response]) (system.settle connection turn) := by
  have hid := (h.registered.session_id connection session hsession).1
  have hanswered := Session.answeredBy_handle hanswer
  refine ⟨hregistered, ?_, ?_, ?_, ?_⟩
  · rw [muted_settle, h.muted_eq]
  · intro key player
    rw [service_settle, hservice]
    exact h.held_answer hsession key player
  · intro other command' response' hmem
    rcases List.mem_append.1 hmem with hmem | hmem
    · exact h.answered other command' response' hmem
    · cases List.mem_singleton.1 hmem
      exact hanswered
  · intro other
    rw [answersOn_of_sent (sent_settle system connection turn), hsent, hid,
      filterMap_answers (fun push hpush => Session.action_of_mem_pushed hpush) hanswered,
      h.answersOn_eq, List.filterMap_append]

theorem Traced.close (h : Traced past system)
    (hsession : system.sessions[connection]? = some session)
    (hplayers : turn.service.players = (session.close system.service).players)
    (hsent : turn.sent = []) (hregistered : (system.settle connection turn).Registered) :
    Traced (past ++ [.ended connection]) (system.settle connection turn) := by
  refine ⟨hregistered, ?_, ?_, ?_, ?_⟩
  · rw [muted_settle, h.muted_eq]
  · intro key player
    rw [service_settle, hplayers]
    exact h.held_close hsession key player
  · intro other command response hmem
    rcases List.mem_append.1 hmem with hmem | hmem
    · exact h.answered other command response hmem
    · cases List.mem_singleton.1 hmem
  · intro other
    rw [answersOn_of_sent (sent_settle system connection turn), hsent, h.answersOn_eq]
    simp [Deed.responseOn?]

theorem Traced.step (h : Traced past system) {step : Step}
    (hstep : ∀ connection, step ≠ .mute connection) :
    Traced (past ++ system.deeds step) (system.step step) := by
  cases step with
  | mute connection => exact absurd rfl (hstep connection)
  | connect =>
    simp only [deeds, List.append_nil]
    exact ⟨h.registered.connect, h.muted_eq, h.held_iff, h.answered, h.answersOn_eq⟩
  | save =>
    simp only [deeds, List.append_nil]
    exact ⟨h.registered.step .save, h.muted_eq, h.held_iff, h.answered, h.answersOn_eq⟩
  | receive connection fresh now inbound =>
    have hregistered := h.registered.step (.receive connection fresh now inbound)
    cases hsession : system.sessions[connection]? with
    | none =>
      simp only [deeds, System.step, hsession, List.append_nil]
      exact h
    | some session =>
      rw [step_receive hsession] at hregistered ⊢
      simp only [deeds, hsession]
      rw [step_receive hsession]
      cases h.sends session fresh now inbound with
      | answers frame command response hframe hcommand hanswer hservice hstatus hsent =>
        subst hframe
        simp only [Session.carriedOut?, hcommand, hanswer, mem_sessions_settle hstatus, if_true,
          List.append_nil]
        exact h.answer hsession hanswer hservice hsent hregistered
      | ends failure hnone hstatus hsent =>
        simp only [hnone, not_mem_sessions_settle hstatus, if_false, List.nil_append]
        exact h.close hsession (Session.players_of_ended hstatus) hsent hregistered

theorem Traced.run (h : Traced past system) {steps : List Step}
    (hopen : ∀ connection, .mute connection ∉ steps) :
    Traced (past ++ system.history steps) (system.run steps) := by
  induction steps generalizing past system with
  | nil => simpa [history, System.run] using h
  | cons step rest ih =>
    have hstep : ∀ connection, step ≠ .mute connection := by
      rintro connection rfl
      exact hopen connection List.mem_cons_self
    have hrest : ∀ connection, .mute connection ∉ rest :=
      fun connection hmem => hopen connection (List.mem_cons_of_mem _ hmem)
    have hrun := ih (h.step hstep) hrest
    rw [List.append_assoc] at hrun
    exact hrun

/-! ### Messages to players -/

theorem Traced.getElem?_of_holds (h : Traced past system) (hholds : Holds past holder key) :
    system.service.players[key]? = some ⟨holder, holder⟩ :=
  (h.held_iff key ⟨holder, holder⟩).2 ⟨rfl, hholds⟩

theorem Traced.getElem?_of_not_holds (h : Traced past system)
    (hnone : ∀ holder, ¬ Holds past holder key) : system.service.players[key]? = none := by
  by_contra hsome
  obtain ⟨player, hplayer⟩ := Option.ne_none_iff_exists'.1 hsome
  exact hnone player.owner ((h.held_iff key player).1 hplayer).2

section

variable {frame : String} {action : Protocol.PlayerAction}

theorem Traced.forward (h : Traced past system)
    (hsession : system.sessions[connection]? = some session)
    (hcommand : Command.ofText frame = .ok (.forward key action)) (hholds : Holds past holder key) :
    (system.step (.receive connection fresh now (.text frame))).sent = system.sent ++
      [(holder, ⟨"CTRL", .object [("Action", .string action.action), ("Key", .string key),
        ("Value", action.value.getD .null)]⟩)] ∧
    connection ∈ (system.step (.receive connection fresh now (.text frame))).sessions := by
  have hopen : (system.circumstances fresh now).isOpen holder = true := by
    simp [circumstances, h.muted_eq]
  have hturn := @Session.step_forward session system.service _ _ _ _ hcommand _
    (h.getElem?_of_holds hholds) hopen
  rw [step_receive hsession, hturn, sent_settle,
    Protocol.PlayerAction.control_eq fun value => Command.inOrder_of_ofText hcommand]
  exact ⟨rfl, mem_sessions_settle rfl⟩

theorem Traced.forward_to_none (h : Traced past system)
    (hsession : system.sessions[connection]? = some session)
    (hcommand : Command.ofText frame = .ok (.forward key action))
    (hnone : ∀ holder, ¬ Holds past holder key) :
    (system.step (.receive connection fresh now (.text frame))).sent = system.sent ∧
    connection ∉ (system.step (.receive connection fresh now (.text frame))).sessions ∧
    (system.step (.receive connection fresh now (.text frame))).ended =
      system.ended ++ [(connection, some (.refused (.unknownPlayer key)))] := by
  have hturn := @Session.step_forward_of_none session _ (system.circumstances fresh now) _ _ _
    hcommand (h.getElem?_of_not_holds hnone)
  rw [step_receive hsession, hturn, sent_settle]
  exact ⟨List.append_nil _, not_mem_sessions_settle rfl, ended_settle rfl⟩

end

/-- A step sends more, and to players only what a command passes on. -/
theorem Traced.sent_step (h : Traced past system) (step : Step) :
    ∃ messages, (system.step step).sent = system.sent ++ messages ∧
      ∀ message ∈ messages, message.2.action = "CTRL" → ∃ connection fresh now frame key action,
        step = .receive connection fresh now (.text frame) ∧
        Command.ofText frame = .ok (.forward key action) := by
  cases step with
  | connect | mute | save => exact ⟨[], (List.append_nil _).symm, by simp⟩
  | receive connection fresh now inbound =>
    cases hsession : system.sessions[connection]? with
    | none => exact ⟨[], by simp [System.step, hsession], by simp⟩
    | some session =>
      rw [step_receive hsession, sent_settle]
      cases h.sends session fresh now inbound with
      | ends failure _ _ hsent => exact ⟨[], by rw [hsent], by simp⟩
      | answers frame command response hframe hcommand hanswer _ _ hsent =>
        refine ⟨_, rfl, ?_⟩
        rw [hsent]
        intro message hmem haction
        by_cases hforward : ∃ key action, command = .forward key action
        · obtain ⟨key, action, rfl⟩ := hforward
          exact ⟨connection, fresh, now, frame, key, action, by rw [hframe], hcommand⟩
        · rw [Session.pushed_handle fun key action heq => hforward ⟨key, action, heq⟩,
            List.nil_append] at hmem
          obtain ⟨answer, hresponse, rfl⟩ := List.mem_map.1 hmem
          have hname := (Session.answeredBy_handle hanswer).1 answer (by simpa using hresponse)
          rw [hname] at haction
          exact absurd haction command.tag.name_ne_control

theorem sent_step_of_error (system : System) {frame : String} {failure : Protocol.Failure}
    (h : Command.ofText frame = .error failure) :
    (system.step (.receive connection fresh now (.text frame))).sent = system.sent ∧
    connection ∉ (system.step (.receive connection fresh now (.text frame))).sessions := by
  cases hsession : system.sessions[connection]? with
  | none =>
    have hstay : system.step (.receive connection fresh now (.text frame)) = system := by
      simp [System.step, hsession]
    rw [hstay]
    refine ⟨rfl, fun hmem => ?_⟩
    obtain ⟨session, hsome⟩ := Map.exists_getElem? hmem
    rw [hsession] at hsome
    cases hsome
  | some session =>
    rw [step_receive hsession, Session.step_of_error h, sent_settle]
    exact ⟨List.append_nil _, not_mem_sessions_settle rfl⟩

end

/-- **Messages are routed.** After any run from no connections and no players in which all messages
are taken, every connection was sent the answers to its own commands, in their order, and each
command was answered as it has to be. An action for a player goes to the connection that holds the
player's key by then, with its value, and to no other; if there is none, the sender ends with
nothing sent. No other step sends a message for a player, and a frame without a known action is
never answered. -/
theorem messages_routed (service : Service) (steps : List Step)
    (hopen : ∀ connection, .mute connection ∉ steps) :
    let start : System := { service := { service with players := ∅ } }
    let system := start.run steps
    let past := start.history steps
    (∀ connection,
      system.answersOn connection = past.filterMap (Deed.responseOn? connection)) ∧
    (∀ connection command response, .carriedOut connection command response ∈ past →
      command.AnsweredBy response) ∧
    (∀ connection fresh now frame key action, connection ∈ system.sessions →
      Command.ofText frame = .ok (.forward key action) →
      let after := system.step (.receive connection fresh now (.text frame))
      (∀ holder, Holds past holder key → connection ∈ after.sessions ∧
        after.sent = system.sent ++ [(holder, ⟨"CTRL", .object [("Action", .string action.action),
          ("Key", .string key), ("Value", action.value.getD .null)]⟩)]) ∧
      ((∀ holder, ¬ Holds past holder key) → connection ∉ after.sessions ∧
        after.sent = system.sent ∧ ∃ error : Error, error.kind = .unknownEntity ∧
          after.ended = system.ended ++ [(connection, some (.refused error))])) ∧
    (∀ step, ∃ messages, (system.step step).sent = system.sent ++ messages ∧
      ∀ message ∈ messages, message.2.action = "CTRL" → ∃ connection fresh now frame key action,
        step = .receive connection fresh now (.text frame) ∧
        Command.ofText frame = .ok (.forward key action)) ∧
    (∀ connection fresh now frame,
      (∀ envelope, Json.Decoder.runText Envelope.decoder frame = some envelope →
        Tag.ofName? envelope.action = none) →
      let after := system.step (.receive connection fresh now (.text frame))
      connection ∉ after.sessions ∧ after.sent = system.sent) ∧
    Tag.ofName? "CTRL" = none := by
  intro start system past
  have h : Traced past system := by
    have hrun := (traced_start service).run hopen
    rwa [List.nil_append] at hrun
  refine ⟨h.answersOn_eq, h.answered, ?_, h.sent_step, ?_, by decide⟩
  · intro connection fresh now frame key action hmem hcommand after
    obtain ⟨session, hsession⟩ := Map.exists_getElem? hmem
    constructor
    · intro holder hholds
      exact (h.forward hsession hcommand hholds).symm
    · intro hnone
      obtain ⟨hsent, hgone, hended⟩ := h.forward_to_none hsession hcommand hnone
      exact ⟨hgone, hsent, .unknownPlayer key, rfl, hended⟩
  · intro connection fresh now frame hunknown after
    obtain ⟨failure, herror⟩ := Protocol.Command.exists_error_of_unknown hunknown
    exact (sent_step_of_error system herror).symm

/-- An action goes to the connection that took the key over, and not to the one before. -/
theorem messages_routed_den :
    let now := ⟨⟨2024, 1, 1⟩, 0, 0, 0, by decide⟩
    let take := "\x7b\"Action\":\"KEY\",\"Data\":\x7b\"key\":\"den\"\x7d\x7d"
    let go := "\x7b\"Action\":\"PLAYER\",\"Data\":\x7b\"key\":\"den\",\"action\":\"GO\"\x7d\x7d"
    let steps := [.connect, .connect, .receive 0 ⟨0⟩ now (.text take),
      .receive 1 ⟨0⟩ now (.text take)]
    let system := System.run { service := .start (.ofGroups ∅) "music" } steps
    (∀ connection, .mute connection ∉ steps) ∧
    (system.step (.receive 0 ⟨0⟩ now (.text go))).sent = system.sent ++ [(1, ⟨"CTRL", .object [
      ("Action", .string "GO"), ("Key", .string "den"), ("Value", .null)]⟩)] := by
  intro now take go steps system
  have hopen : ∀ connection, .mute connection ∉ steps := by simp [steps]
  -- the texts are read once here, since `simp` would open their readers
  have htake : Command.ofText take = .ok (.key "den") := by
    simp only [take]
    decide +kernel
  have hgo : Command.ofText go = .ok (.forward "den" ⟨"GO", none⟩) := by
    simp only [go]
    decide +kernel
  have hpast : history { service := .start (.ofGroups ∅) "music" } steps =
      [.carriedOut 0 (.key "den") none, .carriedOut 1 (.key "den") none] := by
    simp [steps, history, deeds, System.step, settle, report, Session.step, Session.settle,
      Session.carriedOut?, Session.handle, htake]
  have hholds : Holds (history { service := .start (.ofGroups ∅) "music" } steps) 1 "den" := by
    rw [hpast]
    exact ⟨by decide, [.carriedOut 0 (.key "den") none], .carriedOut 1 (.key "den") none, [], rfl,
      ⟨rfl, rfl⟩, by simp⟩
  have hmem : 0 ∈ system.sessions := by
    simp [system, steps, System.run, System.step, settle, report, Session.step, Session.settle,
      Session.handle, htake]
  have hrouted := messages_routed (.start (.ofGroups ∅) "music") steps hopen
  obtain ⟨-, hsent⟩ := (hrouted.2.2.1 0 ⟨0⟩ now go "den" _ hmem hgo).1 1 hholds
  exact ⟨hopen, hsent⟩

end System

end Jukebox
