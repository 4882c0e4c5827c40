import Jukebox.Proofs.Json.Order
import Jukebox.Proofs.Result
import Jukebox.Proofs.Session

/-!
What a session sends. A command that is carried out is answered by at most one response, under the
command's own name; only an action that is passed on to a player is pushed to a connection. A
session whose command fails, or that is sent no command, ends and sends nothing.
-/

namespace Jukebox

open Result (bind_eq_ok_iff pure_eq_ok_iff)

namespace Protocol

/-! ### Messages to players -/

/-- The message that passes an action on has its word, the player's key and its value, or `null`. -/
theorem PlayerAction.control_eq {action : PlayerAction} {key : String}
    (h : ∀ value, action.value = some value → value.InOrder) :
    action.control key = ⟨"CTRL", .object [("Action", .string action.action),
      ("Key", .string key), ("Value", action.value.getD .null)]⟩ := by
  obtain ⟨word, value⟩ := action
  have hvalue : (Json.optional id value).sorted = value.getD .null := by
    cases value with
    | none => rfl
    | some value => exact h value rfl
  suffices Json.sortedMembers [] [("Key", .string key), ("Action", .string word),
      ("Value", .optional id value)] = [("Action", .string word), ("Key", .string key),
      ("Value", value.getD .null)] by simpa [control, Response.of, Json.sorted]
  simp only [Json.sortedMembers, Json.sorted, hvalue, Json.insertMember,
    show "Action" < "Key" by decide, show ¬ "Value" < "Action" by decide,
    show ¬ "Value" < "Key" by decide, show "Value" ≠ "Action" by decide,
    show "Value" ≠ "Key" by decide, if_true, if_false]

theorem Envelope.membersInOrder_of_decoder {depth : Nat} {source : Json.Source}
    {envelope : Envelope} (h : Envelope.decoder depth source = some envelope) :
    Json.MembersInOrder envelope.data := by
  unfold Envelope.decoder at h
  obtain ⟨record, -, h⟩ := Option.bind_eq_some_iff.1 h
  split at h
  · rename_i inner _ action data
    obtain ⟨word, -, h⟩ := Option.bind_eq_some_iff.1 h
    obtain ⟨members, hmembers, h⟩ := Option.bind_eq_some_iff.1 h
    cases h
    cases data with
    | none =>
      cases hmembers
      exact Json.membersInOrder_nil
    | some data => exact Json.Decoder.membersInOrder_of_object hmembers
  · cases h

theorem Fields.mem_of_optional {fields : Fields} {field : String} {value : Json}
    (h : fields.optional field = some value) : ∃ name, (name, value) ∈ fields := by
  unfold optional at h
  split at h
  · cases h
  · cases h
  · rename_i found _ hlookup
    cases h
    obtain ⟨before, after, rfl, -⟩ := List.lookup_eq_some_iff.1 hlookup
    exact ⟨field, by simp⟩

theorem Command.ofPlayerFields_of_ofEnvelope {envelope : Envelope} {key : String}
    {action : PlayerAction} (h : ofEnvelope envelope = .ok (.forward key action)) :
    ofPlayerFields envelope.data = .ok (.forward key action) := by
  unfold ofEnvelope at h
  split at h
  · rename_i tag _
    cases tag with
    | player => exact h
    | _ => simp only [ofFields, bind_eq_ok_iff, pure_eq_ok_iff, reduceCtorEq, and_false,
        exists_false] at h
  · cases h

theorem Command.value_of_ofPlayerFields {fields : Fields} {key : String} {action : PlayerAction}
    (h : ofPlayerFields fields = .ok (.forward key action)) :
    action.value = fields.optional "value" := by
  obtain ⟨word, -, h⟩ := bind_eq_ok_iff.1 h
  split at h
  · cases pure_eq_ok_iff.1 h
  · obtain ⟨other, -, h⟩ := bind_eq_ok_iff.1 h
    cases pure_eq_ok_iff.1 h
    rfl

theorem Command.inOrder_of_ofText {frame key : String} {action : PlayerAction}
    (h : Command.ofText frame = .ok (.forward key action)) {value : Json}
    (hvalue : action.value = some value) : value.InOrder := by
  unfold Command.ofText at h
  split at h
  · rename_i envelope henvelope
    obtain ⟨source, -, hsource⟩ := Option.bind_eq_some_iff.1 henvelope
    have hdata := Envelope.membersInOrder_of_decoder hsource
    have hplayer := ofPlayerFields_of_ofEnvelope h
    obtain ⟨name, hmem⟩ := Fields.mem_of_optional (value_of_ofPlayerFields hplayer ▸ hvalue)
    exact hdata.values (name, value) hmem
  · cases h

theorem Command.exists_error_of_unknown {frame : String}
    (h : ∀ envelope, Json.Decoder.runText Envelope.decoder frame = some envelope →
      Tag.ofName? envelope.action = none) : ∃ failure, Command.ofText frame = .error failure := by
  unfold Command.ofText
  split
  · rename_i envelope henvelope
    exact ⟨.unknownAction envelope.action, by simp [ofEnvelope, h envelope henvelope]⟩
  · exact ⟨.malformed .frame, rfl⟩

/-! ### Answers -/

/-- The command is answered as it has to be: by one response under its own name, by none if it
asks for nothing, and by one or none if it searches. -/
def Command.AnsweredBy (command : Command) (response : Option Response) : Prop :=
  (∀ message ∈ response, message.action = command.tag.name) ∧
  match command with
  | key _ | forward .. | recordPlay _ | setFlag .. => response = none
  | search _ => True
  | _ => response.isSome

theorem Tag.name_ne_control (tag : Tag) : tag.name ≠ "CTRL" := by
  cases tag <;> decide

end Protocol

namespace Session

open Protocol (Command PlayerAction Response Tag)

variable {session : Session} {service : Service} {circumstances : Circumstances}
  {command : Command} {response : Option Response}

theorem exists_of_respondWith {tag : Tag} {data : Except Error Json}
    (h : respondWith tag data = .ok response) :
    ∃ message : Response, response = some message ∧ message.action = tag.name := by
  unfold respondWith at h
  split at h
  · rename_i data
    cases h
    exact ⟨.of tag.name data, rfl, rfl⟩
  · cases h

/-- A command that is carried out is answered as it has to be. -/
theorem answeredBy_handle
    (h : (session.handle service circumstances command).answer = .ok response) :
    command.AnsweredBy response := by
  cases command with
  | key | recordPlay | setFlag =>
    cases h
    exact ⟨by simp, rfl⟩
  | forward key action =>
    simp only [handle] at h
    split at h
    · cases h
      exact ⟨by simp, rfl⟩
    · cases h
  | search input =>
    refine ⟨?_, trivial⟩
    simp only [handle] at h
    split at h
    · cases h
      simp [Response.of, Command.tag]
    · cases h
      simp
  | players | fetchPathList =>
    cases h
    exact ⟨by simp [Response.of, Command.tag], rfl⟩
  | playlist | cursor | fetch | filterList | filterPaths =>
    obtain ⟨message, rfl, haction⟩ := exists_of_respondWith h
    exact ⟨by simp [haction, Command.tag], rfl⟩

theorem pushed_handle (h : ∀ key action, command ≠ .forward key action) :
    (session.handle service circumstances command).pushed = [] := by
  cases command with
  | forward key action => exact absurd rfl (h key action)
  | _ => rfl

theorem action_of_mem_pushed {push : Nat × Response}
    (h : push ∈ (session.handle service circumstances command).pushed) :
    push.2.action = "CTRL" := by
  by_cases hforward : ∃ key action, command = .forward key action
  · obtain ⟨key, action, rfl⟩ := hforward
    simp only [handle, Players.forward] at h
    split at h
    · rename_i push' hpush
      cases List.mem_singleton.1 h
      split at hpush
      · cases hpush
      · split at hpush
        · cases hpush
          rfl
        · cases hpush
    · cases h
  · rw [pushed_handle fun key action heq => hforward ⟨key, action, heq⟩] at h
    cases h

theorem pushed_of_error {failure : Protocol.Failure}
    (h : (session.handle service circumstances command).answer = .error failure) :
    (session.handle service circumstances command).pushed = [] := by
  by_cases hforward : ∃ key action, command = .forward key action
  · obtain ⟨key, action, rfl⟩ := hforward
    simp only [handle] at h ⊢
    split at h
    · cases h
    · rfl
  · exact pushed_handle fun key action heq => hforward ⟨key, action, heq⟩

theorem id_handle : (session.handle service circumstances command).session.id = session.id := by
  by_cases hkey : ∃ key, command = .key key
  · obtain ⟨key, rfl⟩ := hkey
    rfl
  · exact (keeps_handle fun key heq => hkey ⟨key, heq⟩).id_eq

/-! ### Turns -/

/-- The command that a session carries out when it takes what comes next, and its response. -/
def carriedOut? (session : Session) (service : Service) (circumstances : Circumstances) :
    Inbound → Option (Command × Option Response)
  | .text frame =>
    match Command.ofText frame with
    | .ok command =>
      match (session.handle service circumstances command).answer with
      | .ok response => some (command, response)
      | .error _ => none
    | .error _ => none
  | .failure _ | .finish => none

/-- What a turn of a session sends, if all messages are taken. -/
inductive Sends (session : Session) (service : Service) (circumstances : Circumstances)
    (inbound : Inbound) (turn : Turn) : Prop
  /-- A command that is carried out sends what it pushes, and then its response. -/
  | answers (frame : String) (command : Command) (response : Option Response)
    (hframe : inbound = .text frame) (hcommand : Command.ofText frame = .ok command)
    (hanswer : (session.handle service circumstances command).answer = .ok response)
    (hservice : turn.service = (session.handle service circumstances command).service)
    (hstatus : turn.status = .running (session.handle service circumstances command).session)
    (hsent : turn.sent = (session.handle service circumstances command).pushed ++
      response.toList.map fun message => (session.id, message))
  /-- The end sends nothing. -/
  | ends (failure : Option Protocol.Failure)
    (hnone : session.carriedOut? service circumstances inbound = none)
    (hstatus : turn.status = .ended failure) (hsent : turn.sent = [])

theorem sends_step (hopen : ∀ inbox, circumstances.isOpen inbox = true) (inbound : Inbound) :
    session.Sends service circumstances inbound (session.step service circumstances inbound) := by
  cases inbound with
  | failure reason => exact .ends _ rfl rfl rfl
  | finish => exact .ends _ rfl rfl rfl
  | text frame =>
    simp only [step]
    cases hcommand : Command.ofText frame with
    | error failure => exact .ends _ (by simp [carriedOut?, hcommand]) rfl rfl
    | ok command =>
      cases hanswer : (session.handle service circumstances command).answer with
      | error failure =>
        have hnone : session.carriedOut? service circumstances (.text frame) = none := by
          simp [carriedOut?, hcommand, hanswer]
        have hpushed := pushed_of_error hanswer
        refine .ends (some failure) hnone ?_ ?_ <;> simp [settle, hanswer, hpushed, finish]
      | ok response =>
        have hid := @id_handle session service circumstances command
        refine .answers frame command response rfl hcommand hanswer ?_ ?_ ?_ <;>
          cases response <;> simp [settle, hanswer, hopen, hid]

/-- A session that ends has taken its player off and done nothing else to the players. -/
theorem players_of_ended {inbound : Inbound} {failure : Option Protocol.Failure}
    (h : (session.step service circumstances inbound).status = .ended failure) :
    (session.step service circumstances inbound).service.players =
      (session.close service).players := by
  cases session.registers_step service circumstances inbound with
  | rebinds frame key after _ _ hstatus =>
    rw [hstatus] at h
    cases h
  | keeps after hstatus =>
    rw [hstatus] at h
    cases h
  | closes failure _ hplayers => exact hplayers

theorem step_of_error {frame : String} {failure : Protocol.Failure}
    (h : Command.ofText frame = .error failure) :
    session.step service circumstances (.text frame) = session.finish service (some failure) := by
  simp only [step, h]

section

variable {frame key : String} {action : PlayerAction}

theorem step_forward (hcommand : Command.ofText frame = .ok (.forward key action)) {player : Player}
    (hplayer : service.players[key]? = some player)
    (hopen : circumstances.isOpen player.inbox = true) :
    session.step service circumstances (.text frame) =
      { service, status := .running session, sent := [(player.inbox, action.control key)] } := by
  simp [step, hcommand, handle, Players.forward, hplayer, hopen, settle]

theorem step_forward_of_none (hcommand : Command.ofText frame = .ok (.forward key action))
    (hplayer : service.players[key]? = none) :
    session.step service circumstances (.text frame) =
      session.finish service (some (.refused (.unknownPlayer key))) := by
  simp [step, hcommand, handle, Players.forward, hplayer, settle, finish]

end

end Session

end Jukebox
