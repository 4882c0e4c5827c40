import Jukebox.Socket.Writer
import Mathlib.Data.List.Induction

/-!
What a writer writes. However responses, the end of the session and the turns of the writer come one after
the other, the texts are written in the order in which the responses were sent, and none of those sent
before the end of the session is lost.
-/

namespace Jukebox.Socket.Writer

open Protocol (Response)

variable {writer next : Writer} {steps : List Step} {accepts : Bool}

/-! ### Responses that are sent -/

/-- The responses that steps put into the queue. -/
def enqueued : List Step → List Response
  | [] => []
  | .enqueue response :: rest => response :: enqueued rest
  | .abandon :: _ => []
  | _ :: rest => enqueued rest

theorem enqueued_append_of_abandon (h : .abandon ∈ steps) (rest : List Step) :
    enqueued (steps ++ rest) = enqueued steps := by
  induction steps with
  | nil => cases h
  | cons step steps ih =>
    cases step with
    | abandon => rfl
    | enqueue | stop | poll =>
      have htail := ih (by simpa using h)
      simp [enqueued, htail]

theorem enqueued_append_of_not_abandon (h : .abandon ∉ steps) (rest : List Step) :
    enqueued (steps ++ rest) = enqueued steps ++ enqueued rest := by
  induction steps with
  | nil => rfl
  | cons step steps ih =>
    have htail := ih fun hmem => h (by simp [hmem])
    cases step with
    | abandon => exact absurd List.mem_cons_self h
    | enqueue | stop | poll => simp [enqueued, htail]

theorem enqueued_mono {before : List Step} (h : before <+: steps) :
    enqueued before <+: enqueued steps := by
  obtain ⟨rest, rfl⟩ := h
  by_cases habandon : .abandon ∈ before
  · simp [enqueued_append_of_abandon habandon]
  · exact ⟨_, (enqueued_append_of_not_abandon habandon rest).symm⟩

theorem enqueued_concat {step : Step} (h : ∀ response, step ≠ .enqueue response) :
    enqueued (steps ++ [step]) = enqueued steps := by
  by_cases habandon : .abandon ∈ steps
  · exact enqueued_append_of_abandon habandon [step]
  · rw [enqueued_append_of_not_abandon habandon]
    cases step with
    | enqueue response => exact absurd rfl (h response)
    | abandon | stop | poll => exact List.append_nil _

/-! ### One step -/

theorem run_concat (writer : Writer) (steps : List Step) (step : Step) :
    writer.run (steps ++ [step]) = (writer.run steps).step step := by
  simp [run]

/-- A writer that has closed the socket is left as it is, but for its queue and what it was told. -/
theorem step_of_closed (h : writer.closed = true) (step : Step) :
    (writer.step step).closed = true ∧ (writer.step step).written = writer.written := by
  cases step with
  | enqueue response => simp only [Writer.step]; split <;> exact ⟨h, rfl⟩
  | abandon | stop => exact ⟨h, rfl⟩
  | poll accepts => simp [Writer.step, poll, h]

theorem run_of_closed (h : writer.closed = true) (later : List Step) :
    (writer.run later).closed = true ∧ (writer.run later).written = writer.written := by
  induction later using List.reverseRecOn with
  | nil => exact ⟨h, rfl⟩
  | append_singleton later step ih =>
    obtain ⟨hclosed, hwritten⟩ := step_of_closed ih.1 step
    rw [run_concat]
    exact ⟨hclosed, hwritten.trans ih.2⟩

/-- What a turn comes to: a writer that has closed the socket does nothing; else a text is written or
refused, a response is taken, or with nothing to write the socket is closed or the writer waits. -/
inductive Turned (writer : Writer) : Bool → Writer → Prop
  | rests {accepts : Bool} (hclosed : writer.closed = true) : Turned writer accepts writer
  | writes {text : String} (hopen : writer.closed = false) (hwriting : writer.writing = some text) :
    Turned writer true { writer with writing := none, written := writer.written ++ [text] }
  | fails {text : String} (hopen : writer.closed = false) (hwriting : writer.writing = some text) :
    Turned writer false { writer with writing := none, closed := true }
  | takes {accepts : Bool} {response : Response} {rest : List Response}
    (hopen : writer.closed = false) (hwriting : writer.writing = none)
    (hqueue : writer.queue = response :: rest) :
    Turned writer accepts { writer with queue := rest, writing := some response.text }
  | closes {accepts : Bool} (hopen : writer.closed = false) (hwriting : writer.writing = none)
    (hqueue : writer.queue = []) (htold : writer.stopped = true ∨ writer.abandoned = true) :
    Turned writer accepts { writer with closed := true }
  | waits {accepts : Bool} (hopen : writer.closed = false) (hwriting : writer.writing = none)
    (hqueue : writer.queue = []) (hstopped : writer.stopped = false)
    (habandoned : writer.abandoned = false) : Turned writer accepts writer

theorem turned_poll (writer : Writer) (accepts : Bool) :
    writer.Turned accepts (writer.poll accepts) := by
  obtain ⟨queue, abandoned, stopped, writing, written, closed⟩ := writer
  cases closed with
  | true => exact .rests rfl
  | false =>
    cases writing with
    | some text =>
      cases accepts with
      | true => exact .writes rfl rfl
      | false => exact .fails rfl rfl
    | none =>
      cases queue with
      | cons response rest => exact .takes rfl rfl rfl
      | nil =>
        cases stopped with
        | true => exact .closes rfl rfl rfl (.inl rfl)
        | false =>
          cases abandoned with
          | true => exact .closes rfl rfl rfl (.inr rfl)
          | false => exact .waits rfl rfl rfl rfl rfl

/-- **What a writer has done after steps**: what it was told is among the steps, and until it closes the
socket all responses that were sent are written, about to be written or queued, in this order. -/
structure Follows (writer : Writer) (steps : List Step) : Prop where
  abandoned_iff : writer.abandoned = true ↔ .abandon ∈ steps
  stopped_iff : writer.stopped = true ↔ .stop ∈ steps
  row : writer.closed = false → writer.written ++ (writer.writing.toList ++
    writer.queue.map Response.text) = (enqueued steps).map Response.text
  front : writer.written <+: (enqueued steps).map Response.text

theorem follows_nil : Follows {} [] := ⟨by simp, by simp, fun _ => rfl, List.prefix_refl _⟩

/-- A response joins the end of the row, unless all who could send are gone. -/
theorem Follows.enqueue (h : writer.Follows steps) (response : Response) :
    (writer.step (.enqueue response)).Follows (steps ++ [.enqueue response]) := by
  have hfront := enqueued_mono (List.prefix_append steps [.enqueue response])
  have habandoned : writer.abandoned = true ↔ .abandon ∈ steps ++ [.enqueue response] := by
    simpa using h.abandoned_iff
  have hstopped : writer.stopped = true ↔ .stop ∈ steps ++ [.enqueue response] := by
    simpa using h.stopped_iff
  unfold Writer.step
  dsimp only
  split
  · rename_i hgone
    have hsame := enqueued_append_of_abandon (h.abandoned_iff.1 hgone) [.enqueue response]
    exact ⟨habandoned, hstopped, hsame ▸ h.row, hsame ▸ h.front⟩
  · rename_i hleft
    have hone := enqueued_append_of_not_abandon (fun hmem => hleft (h.abandoned_iff.2 hmem))
      [.enqueue response]
    refine ⟨habandoned, hstopped, fun hclosed => ?_, h.front.trans (hfront.map _)⟩
    simp [hone, ← h.row hclosed, enqueued]

/-- A turn moves the front of the row on: from the queue to the text that is about to be written, and
from there to what is written. -/
theorem Follows.turned (h : writer.Follows steps) (hturned : writer.Turned accepts next) :
    next.Follows (steps ++ [.poll accepts]) := by
  have hsame : enqueued (steps ++ [.poll accepts]) = enqueued steps := enqueued_concat (by simp)
  have hkeeps : writer.Follows (steps ++ [.poll accepts]) :=
    ⟨by simpa using h.abandoned_iff, by simpa using h.stopped_iff, hsame ▸ h.row, hsame ▸ h.front⟩
  cases hturned with
  | rests | waits => exact hkeeps
  | fails | closes => exact { hkeeps with row := by simp }
  | takes hopen hwriting hqueue =>
    have hrow := hkeeps.row hopen
    rw [hwriting, hqueue] at hrow
    exact { hkeeps with row := fun _ => hrow }
  | writes hopen hwriting =>
    have hrow := hkeeps.row hopen
    rw [hwriting] at hrow
    refine { hkeeps with row := fun _ => ?_, front := ?_ }
    · rw [← hrow]
      simp
    · rw [← hrow]
      exact ⟨writer.queue.map Response.text, by simp⟩

theorem Follows.step (h : writer.Follows steps) (step : Step) :
    (writer.step step).Follows (steps ++ [step]) := by
  cases step with
  | enqueue response => exact h.enqueue response
  | poll accepts => exact h.turned (turned_poll writer accepts)
  | abandon =>
    have hsame : enqueued (steps ++ [.abandon]) = enqueued steps := enqueued_concat (by simp)
    exact ⟨by simp [Writer.step], by simpa [Writer.step] using h.stopped_iff, hsame ▸ h.row,
      hsame ▸ h.front⟩
  | stop =>
    have hsame : enqueued (steps ++ [.stop]) = enqueued steps := enqueued_concat (by simp)
    exact ⟨by simpa [Writer.step] using h.abandoned_iff, by simp [Writer.step], hsame ▸ h.row,
      hsame ▸ h.front⟩

theorem follows_run (steps : List Step) : (run {} steps).Follows steps := by
  induction steps using List.reverseRecOn with
  | nil => exact follows_nil
  | append_singleton steps step ih =>
    rw [run_concat]
    exact ih.step step

/-! ### The end -/

/-- A turn closes the socket when nothing is left to be written and the writer has to stop, or when the
socket does not take a text. -/
theorem Turned.of_closed (h : writer.Turned accepts next) (hopen : writer.closed = false)
    (hclosed : next.closed = true) :
    accepts = false ∨ writer.writing = none ∧ writer.queue = [] ∧
      (writer.stopped = true ∨ writer.abandoned = true) ∧ next.written = writer.written := by
  cases h with
  | rests | waits | writes | takes => exact absurd hclosed (by simp [hopen])
  | fails => exact .inl rfl
  | closes _ hwriting hqueue htold => exact .inr ⟨hwriting, hqueue, htold, rfl⟩

theorem exists_turned_of_closed {step : Step} (hopen : writer.closed = false)
    (hclosed : (writer.step step).closed = true) :
    ∃ accepts, step = .poll accepts ∧ writer.Turned accepts (writer.step step) := by
  cases step with
  | poll accepts => exact ⟨accepts, rfl, turned_poll writer accepts⟩
  | abandon | stop => exact absurd hclosed (by simp [Writer.step, hopen])
  | enqueue response =>
    simp only [Writer.step] at hclosed
    split at hclosed <;> exact absurd hclosed (by simp [hopen])

/-- When a writer whose socket takes all texts closes it, all that was sent until then is written. -/
theorem exists_of_closed (haccepts : .poll false ∉ steps) (h : (run {} steps).closed = true) :
    ∃ done, done <+: steps ∧ (.stop ∈ done ∨ .abandon ∈ done) ∧
      (run {} steps).written = (enqueued done).map Response.text := by
  induction steps using List.reverseRecOn with
  | nil => cases h
  | append_singleton steps step ih =>
    have hbefore : .poll false ∉ steps := fun hmem => haccepts (List.mem_append_left _ hmem)
    have hfront := List.prefix_append steps [step]
    rw [run_concat] at h ⊢
    cases hclosed : (run {} steps).closed with
    | true =>
      obtain ⟨done, hdone, htold, hwritten⟩ := ih hbefore hclosed
      exact ⟨done, hdone.trans hfront, htold, (step_of_closed hclosed step).2.trans hwritten⟩
    | false =>
      have hfollows := follows_run steps
      obtain ⟨accepts, rfl, hturned⟩ := exists_turned_of_closed hclosed h
      rcases hturned.of_closed hclosed h with rfl | ⟨hwriting, hqueue, htold, hwritten⟩
      · exact absurd (by simp) haccepts
      · have hrow := hfollows.row hclosed
        rw [hwriting, hqueue] at hrow
        refine ⟨steps, hfront, htold.imp hfollows.stopped_iff.1 hfollows.abandoned_iff.1, ?_⟩
        rw [hwritten, ← hrow]
        simp

/-- The turns that a writer needs for what is left: one for a text that is about to be written, and two for
a response that is queued. -/
def turnsLeft (writer : Writer) : Nat := 2 * writer.queue.length + writer.writing.toList.length

/-- A turn after which the socket is still open pays for itself, once the writer has to stop. -/
theorem Turned.turnsLeft_lt (h : writer.Turned true next) (hstopped : writer.stopped = true)
    (hopen : next.closed = false) :
    next.stopped = true ∧ next.turnsLeft < writer.turnsLeft := by
  cases h with
  | rests hclosed => simp [hclosed] at hopen
  | closes => cases hopen
  | waits _ _ _ hnot => simp [hstopped] at hnot
  | writes _ hwriting => simp [turnsLeft, hwriting, hstopped]
  | takes _ hwriting hqueue =>
    refine ⟨hstopped, ?_⟩
    simp only [turnsLeft, hwriting, hqueue, List.length_cons, Option.toList_none, Option.toList_some,
      List.length_nil]
    omega

/-- A writer that has to stop closes the socket when it has had its turns. -/
theorem closed_of_polls (hstopped : writer.stopped = true) {polls : Nat}
    (h : writer.turnsLeft < polls) :
    (writer.run (List.replicate polls (.poll true))).closed = true := by
  induction polls generalizing writer with
  | zero => cases h
  | succ polls ih =>
    rw [List.replicate_succ, run, List.foldl_cons, ← run]
    cases hclosed : (writer.step (.poll true)).closed with
    | true => exact (run_of_closed hclosed _).1
    | false =>
      obtain ⟨hstill, hless⟩ := (turned_poll writer true).turnsLeft_lt hstopped hclosed
      exact ih hstill (Nat.lt_of_lt_of_le hless (Nat.le_of_lt_succ h))

/-- **No response is lost.** In whatever order responses are sent, the session ends and the writer has its
turns, what is written is at every moment the front of the row of the responses that were sent. When the
socket is closed and has taken all texts, all responses that were sent before the end of the session are
written, and nothing is written any more. A writer that is told to stop closes the socket after as many turns
as are needed for what is left. -/
theorem no_response_lost (steps : List Step) :
    let writer := run {} steps
    writer.written <+: (enqueued steps).map Response.text ∧
    (writer.closed = true → .poll false ∉ steps → ∀ before, before <+: steps → .stop ∉ before →
      (enqueued before).map Response.text <+: writer.written) ∧
    (writer.closed = true → ∀ later, (writer.run later).closed = true ∧
      (writer.run later).written = writer.written) ∧
    ∀ polls, writer.turnsLeft < polls →
      (writer.run (.stop :: List.replicate polls (.poll true))).closed = true := by
  intro writer
  refine ⟨(follows_run steps).front, fun hclosed haccepts before hbefore hstop => ?_,
    run_of_closed, fun polls hpolls => ?_⟩
  · obtain ⟨done, hdone, htold, hwritten⟩ := exists_of_closed haccepts hclosed
    rw [hwritten]
    refine List.IsPrefix.map _ ?_
    rcases htold with htold | htold
    · -- the end of the session comes after the first steps, and before the socket is closed
      refine enqueued_mono ((List.prefix_or_prefix_of_prefix hbefore hdone).resolve_right fun h => ?_)
      exact hstop (h.subset htold)
    · obtain ⟨rest, rfl⟩ := hdone
      rw [← enqueued_append_of_abandon htold rest]
      exact enqueued_mono hbefore
  · rw [run, List.foldl_cons, ← run]
    exact closed_of_polls rfl hpolls

/-- The list of players is being written when an action for the own player comes in and the session ends:
both are written before the socket is closed. What is sent after that is not. -/
theorem no_response_lost_hall :
    let players : Response := .of "PLAYER" (.array [.string "hall"])
    let control : Response := .of "CTRL" .null
    let before : List Step := [.enqueue players, .poll true, .enqueue control]
    let steps : List Step :=
      before ++ [.stop, .poll true, .poll true, .poll true, .poll true, .enqueue players]
    let writer := run {} steps
    writer.closed = true ∧ .poll false ∉ steps ∧ before <+: steps ∧ .stop ∉ before ∧
    [players.text, control.text] <+: writer.written ∧ writer.queue.map Response.text = [players.text] ∧
    (writer.run [.poll true]).written = writer.written := by
  intro players control before steps writer
  have hclosed : writer.closed = true := rfl
  have haccepts : .poll false ∉ steps := by simp [steps, before]
  have hbefore : before <+: steps := List.prefix_append before _
  have hstop : .stop ∉ before := by simp [before]
  obtain ⟨-, hall, hlater, -⟩ := no_response_lost steps
  exact ⟨hclosed, haccepts, hbefore, hstop, hall hclosed haccepts before hbefore hstop, rfl,
    (hlater hclosed [.poll true]).2⟩

end Jukebox.Socket.Writer
