import Jukebox.Session
import Jukebox.Proofs.Players

/-!
What a session does to the players. A key command rebinds its player, a session that ends takes its
key off, and nothing else that a session takes touches the players or its own key.
-/

namespace Jukebox.Session

open Protocol (Command)

variable {session : Session} {service : Service} {circumstances : Circumstances}

theorem getElem?_close {keyOf : Nat → Option String} (hheld : service.players.HeldBy keyOf)
    {key : String} {player : Player} (hkey : keyOf session.id = some session.playerKey) :
    (session.close service).players[key]? = some player ↔
      service.players[key]? = some player ∧ player.owner ≠ session.id := by
  unfold close
  split
  · rename_i hempty
    refine (and_iff_left_of_imp fun hplayer howner => ?_).symm
    obtain ⟨hne, hheldKey⟩ := hheld key player hplayer
    rw [howner, hkey] at hheldKey
    exact hne (Option.some.inj hheldKey ▸ by simpa using hempty)
  · exact hheld.getElem?_removeOwned hkey

/-- The session is the one before but for its searcher, and the players are the same. -/
structure Keeps (session : Session) (service : Service) (after : Session) (later : Service) :
    Prop where
  id_eq : after.id = session.id
  playerKey_eq : after.playerKey = session.playerKey
  players_eq : later.players = service.players

theorem keeps_handle {command : Command} (h : ∀ key, command ≠ .key key) :
    session.Keeps service (session.handle service circumstances command).session
      (session.handle service circumstances command).service := by
  cases command with
  | key key => exact absurd rfl (h key)
  | forward key action =>
    simp only [handle]
    split <;> exact ⟨rfl, rfl, rfl⟩
  | setFlag list path value => cases list <;> exact ⟨rfl, rfl, rfl⟩
  | _ => exact ⟨rfl, rfl, rfl⟩

/-- A session that ends leaves the players as if it had done nothing but close. -/
theorem Keeps.players_close {after : Session} {later : Service}
    (h : session.Keeps service after later) :
    (after.close later).players = (session.close service).players := by
  unfold close
  rw [h.playerKey_eq, h.id_eq]
  split
  · exact h.players_eq
  · dsimp only
    rw [h.players_eq]

/-- What a turn of a session does to its key and to the players. -/
inductive Registers (session : Session) (service : Service) (inbound : Inbound) (turn : Turn) : Prop
  /-- A key command rebinds the player. -/
  | rebinds (frame key : String) (after : Session)
    (hframe : inbound = .text frame) (hcommand : Command.ofText frame = .ok (.key key))
    (hstatus : turn.status = .running after)
    (hid : after.id = session.id) (hkey : after.playerKey = key)
    (hplayers : turn.service.players = service.players.bind session.id session.playerKey
      (if key.isEmpty then none else some (key, session.id)))
  /-- Another command leaves the player as it is. -/
  | keeps (after : Session) (hstatus : turn.status = .running after)
    (hkeeps : session.Keeps service after turn.service)
  /-- The end takes the player off. -/
  | closes (failure : Option Protocol.Failure) (hstatus : turn.status = .ended failure)
    (hplayers : turn.service.players = (session.close service).players)

theorem registers_settle {effect : Effect} {inbound : Inbound} {isOpen : Nat → Bool}
    (h : session.Keeps service effect.session effect.service) :
    session.Registers service inbound (settle effect isOpen) := by
  unfold settle
  dsimp only
  split
  · exact .keeps _ rfl h
  · split
    · exact .keeps _ rfl h
    · exact .closes _ rfl h.players_close
  · exact .closes _ rfl h.players_close

/-- Every turn of a session rebinds, keeps, or takes off its player. -/
theorem registers_step (session : Session) (service : Service) (circumstances : Circumstances)
    (inbound : Inbound) :
    session.Registers service inbound (session.step service circumstances inbound) := by
  cases inbound with
  | failure reason => exact .closes _ rfl rfl
  | finish => exact .closes _ rfl rfl
  | text frame =>
    simp only [step]
    cases hcommand : Command.ofText frame with
    | error failure => exact .closes _ rfl rfl
    | ok command =>
      by_cases hkey : ∃ key, command = .key key
      · obtain ⟨key, rfl⟩ := hkey
        exact .rebinds frame key _ rfl hcommand rfl rfl rfl rfl
      · exact registers_settle (keeps_handle fun key heq => hkey ⟨key, heq⟩)

end Jukebox.Session
