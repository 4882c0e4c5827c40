import Jukebox.Service.Basic

/-!
What the server answers to requests that do not open a socket.
-/

namespace Jukebox.Http

/-- An answer: its status and its body. -/
structure Answer where
  status : Nat
  body : Option Json

/-- The report on a service that runs. -/
def health (service : Service) : Json := .object [
  ("status", .string "ok"), ("module", .string "muse-ctl"), ("version", .string "0.1.0"),
  ("players", .natural service.players.list.length)]

/-- The part of a request's target after the server that it may name. -/
def afterServer (target : List Char) : List Char :=
  let afterScheme := target.dropWhile (· ≠ ':')
  if afterScheme.take 3 = [':', '/', '/'] ∧ target.head? ≠ some '/' then
    let rest := (afterScheme.drop 3).dropWhile fun c => c ≠ '/' ∧ c ≠ '?' ∧ c ≠ '#'
    if rest.head? = some '/' then rest else '/' :: rest
  else target

/-- The path of a request's target: what comes before the query and the fragment. -/
def pathOf (target : String) : String :=
  String.ofList ((afterServer target.toList).takeWhile fun c => c ≠ '?' ∧ c ≠ '#')

/-- Answers a request. Anyone may ask what other origins may ask for, and a request for the socket
has to ask for it to be opened. -/
def answer (service : Service) (method target : String) : Answer :=
  let path := pathOf target
  if method = "OPTIONS" then ⟨200, none⟩
  else if path = "/health" then
    if method = "GET" then ⟨200, some (health service)⟩
    else if method = "HEAD" then ⟨200, none⟩
    else ⟨405, none⟩
  else if path = "/socket" then ⟨if method = "GET" then 400 else 405, none⟩
  else ⟨404, none⟩

end Jukebox.Http
