import Jukebox.Proofs.Isolation
import Jukebox.Socket.Frame

/-!
What the frames of a socket do to a session. The texts that come before the first frame that ends the
session are carried out in their order, up to the first one that fails; nothing after that is looked at.
Pings and pongs count for nothing.
-/

namespace Jukebox

open Protocol (Command Failure Response)

/-! ### Frames -/

namespace Socket.Frame

def isBeat : Frame → Bool
  | ping | pong => true
  | _ => false

def isClose : Frame → Bool
  | close => true
  | _ => false

/-- Texts, pings and pongs: the frames after which a session may go on. -/
def passes : Frame → Bool
  | text _ | ping | pong => true
  | _ => false

/-- The text of a text frame. -/
def text? : Frame → Option String
  | text t => some t
  | _ => none

/-- What is read of a frame: a text, or a failure in place of one. Of the others nothing is read. -/
def read? : Frame → Option (Except Failure String)
  | text t => some (.ok t)
  | binary => some (.error (.malformed .binary))
  | broken message => some (.error (.transport (.broken message)))
  | ping | pong | close => none

/-- What is read of the frames: they are cut off at the first close, and what is left is read one by
one. -/
def reads (frames : List (Circumstances × Frame)) : List (Circumstances × Except Failure String) :=
  (frames.takeWhile fun met => !met.2.isClose).filterMap fun (circumstances, frame) =>
    frame.read?.map (circumstances, ·)

def texts (frames : List (Circumstances × Frame)) : List (Circumstances × String) :=
  frames.filterMap fun (circumstances, frame) => frame.text?.map (circumstances, ·)

/-- The frames that are neither pings nor pongs. -/
def withoutBeats (frames : List (Circumstances × Frame)) : List (Circumstances × Frame) :=
  frames.filter fun met => !met.2.isBeat

theorem inbounds_withoutBeats (frames : List (Circumstances × Frame)) :
    inbounds (withoutBeats frames) = inbounds frames := by
  unfold inbounds withoutBeats
  rw [List.filterMap_filter]
  refine List.filterMap_congr fun met _ => ?_
  obtain ⟨circumstances, frame⟩ := met
  cases frame <;> rfl

end Socket.Frame

namespace Session

open Socket (Frame)

variable {session : Session} {service : Service} {circumstances : Circumstances}
variable {frames served rest : List (Circumstances × Frame)} {text : String}

/-! ### Sessions over frames -/

/-- What a session leaves that is given the frames of a socket up to the end of the stream. -/
def runFrames (session : Session) (service : Service) (frames : List (Circumstances × Frame))
    (last : Circumstances) : Turn :=
  session.run service (Frame.inbounds frames ++ [(last, .finish)])

/-- What a turn leaves together with what comes after it, if the session goes on. -/
def Turn.andThen (turn : Turn) (next : Session → Service → Turn) : Turn :=
  match turn.status with
  | .ended _ => turn
  | .running session =>
    let later := next session turn.service
    { later with sent := turn.sent ++ later.sent, events := turn.events ++ later.events }

/-- Carries out one text after the other. It ends with the stream or the first failure. -/
def serve (session : Session) (service : Service) :
    List (Circumstances × Except Failure String) → Turn
  | [] => session.finish service none
  | (_, .error failure) :: _ => session.finish service (some failure)
  | (circumstances, .ok text) :: rest =>
    (session.step service circumstances (.text text)).andThen fun session service =>
      session.serve service rest

theorem runFrames_text (session : Session) (service : Service) (circumstances : Circumstances)
    (text : String) (rest : List (Circumstances × Frame)) (last : Circumstances) :
    session.runFrames service ((circumstances, .text text) :: rest) last =
      (session.step service circumstances (.text text)).andThen fun session service =>
        session.runFrames service rest last := rfl

/-- A session looks at what is read of the frames, and stops at a close as at the end of the stream. -/
theorem runFrames_eq_serve (session : Session) (service : Service)
    (frames : List (Circumstances × Frame)) (last : Circumstances) :
    session.runFrames service frames last = session.serve service (Frame.reads frames) := by
  induction frames generalizing session service with
  | nil => rfl
  | cons met rest ih =>
    obtain ⟨circumstances, frame⟩ := met
    cases frame with
    | ping | pong => exact ih session service
    | binary | close | broken => rfl
    | text text =>
      rw [runFrames_text]
      simp only [ih]
      rfl

/-! ### Commands that are carried out -/

/-- A session whose connection takes its answer runs on after a command that is carried out. -/
theorem step_of_answer {command : Command} {response : Option Response}
    (hopen : circumstances.isOpen session.id = true) (hcommand : Command.ofText text = .ok command)
    (hanswer : (session.handle service circumstances command).answer = .ok response) :
    session.step service circumstances (.text text) = {
      service := (session.handle service circumstances command).service
      status := .running (session.handle service circumstances command).session
      sent := (session.handle service circumstances command).pushed ++
        response.toList.map (session.id, ·)
      events := (session.handle service circumstances command).events } := by
  have hid := @id_handle session service circumstances command
  cases response <;> simp [step, hcommand, settle, hanswer, hid, hopen]

/-- How far a session has come: where it and the service stand, what was sent, and what changed. -/
structure Progress where
  session : Session
  service : Service
  sent : List (Nat × Response) := []
  events : List Event := []

namespace Progress

variable {progress next : Progress} {turn : Turn} {last : Circumstances}

/-- Carries out the command of a text, and sends the answer. There is no way on if the text is no
command or the command fails. -/
def carryOut? (progress : Progress) (met : Circumstances × String) : Option Progress :=
  match Command.ofText met.2 with
  | .error _ => none
  | .ok command =>
    let effect := progress.session.handle progress.service met.1 command
    match effect.answer with
    | .error _ => none
    | .ok response => some {
        session := effect.session
        service := effect.service
        sent := progress.sent ++ effect.pushed ++ response.toList.map (progress.session.id, ·)
        events := progress.events ++ effect.events }

/-- The session comes through frames: each is a text, a ping or a pong, and the commands of the texts
are carried out, in their order. -/
structure Serves (progress : Progress) (served : List (Circumstances × Frame)) (next : Progress) :
    Prop where
  passes : ∀ met ∈ served, met.2.passes = true
  carriedOut : (Frame.texts served).foldlM carryOut? progress = some next

/-- The end of a session that has come so far, with what the service is then. -/
def leave (progress : Progress) (service : Service) (failure : Option Failure) : Turn where
  service := progress.session.close service
  status := .ended failure
  sent := progress.sent
  events := progress.events

/-- What stops a session that has come so far: the end of the stream, the next frame, or the command of
its text. -/
inductive Stops (progress : Progress) : List (Circumstances × Frame) → Turn → Prop
  | endOfStream : Stops progress [] (progress.leave progress.service none)
  | close (circumstances : Circumstances) (rest : List (Circumstances × Frame)) :
    Stops progress ((circumstances, .close) :: rest) (progress.leave progress.service none)
  | binary (circumstances : Circumstances) (rest : List (Circumstances × Frame)) :
    Stops progress ((circumstances, .binary) :: rest)
      (progress.leave progress.service (some (.malformed .binary)))
  | broken (circumstances : Circumstances) (message : String)
    (rest : List (Circumstances × Frame)) :
    Stops progress ((circumstances, .broken message) :: rest)
      (progress.leave progress.service (some (.transport (.broken message))))
  | noCommand {circumstances : Circumstances} {text : String} {failure : Failure}
    {rest : List (Circumstances × Frame)} (hcommand : Command.ofText text = .error failure) :
    Stops progress ((circumstances, .text text) :: rest)
      (progress.leave progress.service (some failure))
  | fails {circumstances : Circumstances} {text : String} {command : Command} {failure : Failure}
    {rest : List (Circumstances × Frame)} (hcommand : Command.ofText text = .ok command)
    (hanswer : (progress.session.handle progress.service circumstances command).answer =
      .error failure) :
    Stops progress ((circumstances, .text text) :: rest) (progress.leave
      (progress.session.handle progress.service circumstances command).service (some failure))

/-- What a session leaves that goes on from here. -/
def resume (progress : Progress) (frames : List (Circumstances × Frame)) (last : Circumstances) :
    Turn :=
  let turn := progress.session.runFrames progress.service frames last
  { turn with sent := progress.sent ++ turn.sent, events := progress.events ++ turn.events }

theorem carryOut?_eq_some_iff : progress.carryOut? (circumstances, text) = some next ↔
    ∃ command response, Command.ofText text = .ok command ∧
      (progress.session.handle progress.service circumstances command).answer = .ok response ∧
      next = {
        session := (progress.session.handle progress.service circumstances command).session
        service := (progress.session.handle progress.service circumstances command).service
        sent := progress.sent ++
          (progress.session.handle progress.service circumstances command).pushed ++
            response.toList.map (progress.session.id, ·)
        events := progress.events ++
          (progress.session.handle progress.service circumstances command).events } := by
  unfold carryOut?
  cases Command.ofText text with
  | error failure => simp
  | ok command =>
    cases hanswer : (progress.session.handle progress.service circumstances command).answer with
    | error failure => simp [hanswer]
    | ok response => simp [hanswer, eq_comm]

theorem id_of_carryOut? (h : progress.carryOut? (circumstances, text) = some next) :
    next.session.id = progress.session.id := by
  obtain ⟨command, response, -, -, rfl⟩ := carryOut?_eq_some_iff.1 h
  exact id_handle

/-! ### One frame -/

theorem resume_beat {frame : Frame} (h : frame.isBeat = true) :
    progress.resume ((circumstances, frame) :: rest) last = progress.resume rest last := by
  cases frame <;> first | rfl | cases h

theorem resume_text (hopen : circumstances.isOpen progress.session.id = true)
    (h : progress.carryOut? (circumstances, text) = some next) :
    progress.resume ((circumstances, .text text) :: rest) last = next.resume rest last := by
  obtain ⟨command, response, hcommand, hanswer, rfl⟩ := carryOut?_eq_some_iff.1 h
  simp only [resume, runFrames_text, step_of_answer hopen hcommand hanswer, Turn.andThen,
    List.append_assoc]

/-- What stops the session decides what it leaves, whatever frames are still to come. -/
theorem Stops.resume_eq (h : progress.Stops rest turn) (last : Circumstances) :
    progress.resume rest last = turn := by
  have hfinish : ∀ failure, { progress.session.finish progress.service failure with
      sent := progress.sent ++ [], events := progress.events ++ [] } =
        progress.leave progress.service failure := by
    intro failure
    simp [leave, finish]
  cases h with
  | endOfStream | close | binary | broken => exact hfinish _
  | noCommand hcommand =>
    simp only [resume, runFrames_text, step, hcommand]
    exact hfinish _
  | fails hcommand hanswer =>
    obtain ⟨hsession, hevents, -⟩ := handle_of_error hanswer
    simp [resume, runFrames_text, step, hcommand, settle, hanswer, hsession, hevents,
      pushed_of_error hanswer, finish, Turn.andThen, leave]

/-! ### All frames -/

/-- A session that comes through frames goes on with those that follow. The induction is along the
frames, each of which keeps the number of the session. -/
theorem Serves.resume_append (h : progress.Serves served next)
    (hopen : ∀ met ∈ served, met.1.isOpen progress.session.id = true) :
    progress.resume (served ++ rest) last = next.resume rest last := by
  induction served generalizing progress with
  | nil =>
    cases h.carriedOut
    rfl
  | cons met served ih =>
    obtain ⟨circumstances, frame⟩ := met
    obtain ⟨hpasses, hcarried⟩ := h
    have hrest : ∀ met ∈ served, met.2.passes = true := fun met hmet => hpasses met (by simp [hmet])
    have hpass := hpasses _ List.mem_cons_self
    cases frame with
    | binary | close | broken => cases hpass
    | ping | pong =>
      rw [List.cons_append, resume_beat rfl]
      exact ih ⟨hrest, hcarried⟩ fun met hmet => hopen met (by simp [hmet])
    | text text =>
      obtain ⟨middle, hmiddle, hcarried⟩ := Option.bind_eq_some_iff.1 hcarried
      rw [List.cons_append, resume_text (hopen _ List.mem_cons_self) hmiddle]
      refine ih ⟨hrest, hcarried⟩ fun met hmet => ?_
      rw [id_of_carryOut? hmiddle]
      exact hopen met (by simp [hmet])

/-- Every stream of frames stops the session somewhere. -/
theorem exists_stops (progress : Progress) (frames : List (Circumstances × Frame)) :
    ∃ served rest next turn, frames = served ++ rest ∧ progress.Serves served next ∧
      next.Stops rest turn := by
  induction frames generalizing progress with
  | nil => exact ⟨[], [], progress, _, rfl, ⟨by simp, rfl⟩, .endOfStream⟩
  | cons met frames ih =>
    obtain ⟨circumstances, frame⟩ := met
    have hnow : ∀ {turn}, progress.Stops ((circumstances, frame) :: frames) turn →
        ∃ served rest next turn, (circumstances, frame) :: frames = served ++ rest ∧
          progress.Serves served next ∧ next.Stops rest turn :=
      fun hstops => ⟨[], _, progress, _, rfl, ⟨by simp, rfl⟩, hstops⟩
    cases frame with
    | close => exact hnow (.close ..)
    | binary => exact hnow (.binary ..)
    | broken message => exact hnow (.broken ..)
    | ping | pong =>
      obtain ⟨served, rest, next, turn, rfl, ⟨hpasses, hcarried⟩, hstops⟩ := ih progress
      exact ⟨_ :: served, rest, next, turn, rfl, ⟨by simpa [Frame.passes] using hpasses, hcarried⟩,
        hstops⟩
    | text text =>
      cases hcommand : Command.ofText text with
      | error failure => exact hnow (.noCommand hcommand)
      | ok command =>
        cases hanswer : (progress.session.handle progress.service circumstances command).answer with
        | error failure => exact hnow (.fails hcommand hanswer)
        | ok response =>
          have hmiddle := carryOut?_eq_some_iff.2 ⟨command, response, hcommand, hanswer, rfl⟩
          obtain ⟨served, rest, next, turn, rfl, ⟨hpasses, hcarried⟩, hstops⟩ := ih _
          refine ⟨_ :: served, rest, next, turn, rfl, ⟨by simpa [Frame.passes] using hpasses, ?_⟩,
            hstops⟩
          exact Option.bind_eq_some_iff.2 ⟨_, hmiddle, hcarried⟩

theorem Stops.status_eq_iff (h : progress.Stops rest turn) : turn.status = .ended none ↔
    rest = [] ∨ ∃ circumstances after, rest = (circumstances, .close) :: after := by
  cases h <;> simp [leave]

end Progress

/-- **Frames and the end of a session**. A session whose connection takes its answers is given the frames of
a socket. It carries out the texts before the frame that stops it, one after the other, and looks at nothing
after that: what it leaves is told from the first frame that closes the stream, is binary or broken, or
writes no command or one that fails, or from the end of the stream. It ends well if it is stopped by a close
or the end of the stream, and by the failure otherwise. Pings and pongs make no difference. -/
theorem frames_stop_session (hopen : ∀ met ∈ frames, met.1.isOpen session.id = true)
    (last : Circumstances) :
    let start : Progress := { session, service }
    let turn := session.runFrames service frames last
    turn = session.serve service (Frame.reads frames) ∧
    (∀ result, turn = result ↔ ∃ served rest progress, frames = served ++ rest ∧
      start.Serves served progress ∧ progress.Stops rest result) ∧
    (turn.status = .ended none ↔ ∃ served rest progress, frames = served ++ rest ∧
      start.Serves served progress ∧
        (rest = [] ∨ ∃ circumstances after, rest = (circumstances, .close) :: after)) ∧
    ∀ other, Frame.withoutBeats other = Frame.withoutBeats frames →
      session.runFrames service other last = turn := by
  intro start turn
  have hstart : start.resume frames last = turn := by simp [start, turn, Progress.resume]
  -- wherever the session is stopped, what it leaves is what stops it
  have hstops : ∀ {served rest progress result}, frames = served ++ rest →
      start.Serves served progress → progress.Stops rest result → turn = result := by
    rintro served rest progress result rfl hserves hstop
    rw [← hstart, hserves.resume_append fun met hmet => hopen met (List.mem_append_left _ hmet)]
    exact hstop.resume_eq last
  obtain ⟨served, rest, progress, result, hsplit, hserves, hstop⟩ := start.exists_stops frames
  have hresult := hstops hsplit hserves hstop
  refine ⟨runFrames_eq_serve session service frames last, fun other => ⟨?_, ?_⟩, ⟨?_, ?_⟩, ?_⟩
  · rintro rfl
    exact ⟨served, rest, progress, hsplit, hserves, hresult ▸ hstop⟩
  · rintro ⟨served, rest, progress, hsplit, hserves, hstop⟩
    exact hstops hsplit hserves hstop
  · intro hstatus
    rw [hresult] at hstatus
    exact ⟨served, rest, progress, hsplit, hserves, hstop.status_eq_iff.1 hstatus⟩
  · rintro ⟨served, rest, progress, hsplit, hserves, rfl | ⟨circumstances, after, rfl⟩⟩
    · rw [hstops hsplit hserves .endOfStream]
      rfl
    · rw [hstops hsplit hserves (.close ..)]
      rfl
  · intro other hother
    simp only [turn, runFrames, ← Frame.inbounds_withoutBeats other, hother,
      Frame.inbounds_withoutBeats]

/-- A playlist is fetched between a ping and a pong. Then a binary frame comes, which fails the session; the
removal behind it is not tried, and leaves no playlist behind. -/
theorem frames_stop_session_den :
    let now := ⟨⟨2024, 1, 1⟩, 0, 0, 0, by decide⟩
    let met : Circumstances := ⟨⟨0⟩, now, fun inbox => inbox = 0⟩
    let fetch := "\x7b\"Action\":\"PLAYLIST\",\"Data\":" ++
      "\x7b\"name\":\"den\",\"action\":\"FETCH\"\x7d\x7d"
    let remove := "\x7b\"Action\":\"PLAYLIST\",\"Data\":" ++
      "\x7b\"name\":\"den\",\"action\":\"REMOVE\",\"path\":[]\x7d\x7d"
    let frames : List (Circumstances × Frame) :=
      [(met, .ping), (met, .text fetch), (met, .pong), (met, .binary), (met, .text remove)]
    let session : Session := { id := 0 }
    let service := Service.start (.ofGroups ∅) "music"
    let turn := session.runFrames service frames met
    (∀ met ∈ frames, met.1.isOpen session.id = true) ∧
    turn.status = .ended (some (.malformed .binary)) ∧ turn.sent.map Prod.fst = [0] ∧
    turn.service = service ∧
    session.runFrames service [(met, .text fetch), (met, .binary), (met, .text remove)] met = turn := by
  intro now met fetch remove frames session service turn
  have hopen : ∀ met ∈ frames, met.1.isOpen session.id = true := by simp [frames, met, session]
  have hfetch : Command.ofText fetch = .ok (.playlist "den" .fetch) := by
    simp only [fetch]
    decide +kernel
  obtain ⟨-, hturn, -, hbeats⟩ := @frames_stop_session session service frames hopen met
  -- what the session comes through, and where it is stopped
  have hserves : Progress.Serves { session, service }
      [(met, .ping), (met, .text fetch), (met, .pong)] _ :=
    ⟨by simp [Frame.passes], Option.bind_eq_some_iff.2
      ⟨_, Progress.carryOut?_eq_some_iff.2 ⟨_, _, hfetch, rfl, rfl⟩, rfl⟩⟩
  have hstop := (hturn _).2 ⟨_, _, _, rfl, hserves, .binary ..⟩
  exact ⟨hopen, congrArg Turn.status hstop, congrArg (·.sent.map Prod.fst) hstop,
    congrArg Turn.service hstop, hbeats _ rfl⟩

end Session

end Jukebox
