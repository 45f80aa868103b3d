import OpenCog.Shell.GenericShell
import Mathlib.Data.Finset.Basic

/-!
# The shell and its console socket

A `GenericShell` serves one console socket at a time.  The console calls `eval` with each line it
receives: `eval` keeps the socket it holds, or takes the one it is called with if it holds none,
sends the reply of `do_eval` to it and, when `do_eval` set `self_destruct`, sends a last prompt
and deletes the shell.  `set_socket` lets go of the socket held and takes another one,
`socketClosed` deletes the shell, and the destructor lets go of the socket held.  To let go of a
socket is to call `SetShell(NULL)` and then `OnRequestComplete()` on it, after which the console
may free it.

`ConsoleSocket` is not under `src/`: the sockets are a type `κ` of their addresses, and what the
shell does to them is the list of calls it makes (`SocketCall`).

* `Console.step`, `Console.run` : one call of the console on the shell, and a sequence of calls,
  each with the calls the shell makes on sockets, up to the call that deletes the shell;
* `NoUseAfterRelease` : a trace of calls on sockets in which no socket is called after it was let
  go of, unless `SetShell(this)` took it back;
* `run_noUseAfterRelease` : **whatever the console calls, in whatever order, the shell never calls
  a socket it has let go of.**
-/

namespace OpenCog

namespace Shell

/-- A call the shell makes on a `ConsoleSocket`. -/
inductive SocketCall (κ : Type)
  /-- `SetShell(this)`, or `SetShell(NULL)` when `attach` is `false`. -/
  | setShell (s : κ) (attach : Bool)
  /-- `OnRequestComplete()`. -/
  | onRequestComplete (s : κ)
  /-- `Send(reply)`. -/
  | send (s : κ) (reply : Bytes)
  /-- `sendPrompt()`. -/
  | sendPrompt (s : κ)

/-- A call of the console on the shell. -/
inductive ShellCall (κ : Type)
  /-- `eval(expr, s)`. -/
  | eval (expr : Bytes) (s : κ)
  /-- `set_socket(s)`. -/
  | setSocket (s : κ)
  /-- `socketClosed()`. -/
  | socketClosed
  /-- `hush_output(hush)`. -/
  | hushOutput (hush : Bool)
  /-- `hush_prompt(hush)`. -/
  | hushPrompt (hush : Bool)

/-- A shell with the socket it holds, `none` for `NULL`. -/
structure Console (σ κ : Type) where
  shell : GenericShell σ
  socket : Option κ

variable {σ κ : Type} (ev : GenericEval σ)

/-- `hush_output`. -/
def GenericShell.hushOutput (sh : GenericShell σ) (hush : Bool) : GenericShell σ :=
  { sh with showOutput := !hush }

/-- `hush_prompt`. -/
def GenericShell.hushPrompt (sh : GenericShell σ) (hush : Bool) : GenericShell σ :=
  { sh with showPrompt := !hush }

namespace Console

/-- The constructor: no socket. -/
def init (e : σ) : Console σ κ := ⟨GenericShell.init e, none⟩

/-- What `set_socket` and the destructor do to the socket held: `SetShell(NULL)`, then
`OnRequestComplete()`. -/
def release (c : Console σ κ) : List (SocketCall κ) :=
  match c.socket with
  | some s => [.setShell s false, .onRequestComplete s]
  | none => []

/-- `set_socket(s)`. -/
def setSocket (c : Console σ κ) (s : κ) : List (SocketCall κ) × Console σ κ :=
  (c.release ++ [.setShell s true], { c with socket := some s })

/-- `eval(expr, s)`: the calls on sockets, and the shell after it, `none` when it deleted itself,
its destructor letting go of the socket; `none` outright where `do_eval` has undefined
behaviour. -/
def eval (c : Console σ κ) (expr : Bytes) (s : κ) :
    Option (List (SocketCall κ) × Option (Console σ κ)) :=
  let socket := c.socket.getD s
  (doEval ev c.shell expr).map fun (retstr, sh) =>
    if sh.selfDestruct then
      ([.send socket retstr, .sendPrompt socket] ++ release ⟨sh, some socket⟩, none)
    else ([.send socket retstr], some ⟨sh, some socket⟩)

/-- One call of the console on the shell. -/
def step (c : Console σ κ) : ShellCall κ → Option (List (SocketCall κ) × Option (Console σ κ))
  | .eval expr s => c.eval ev expr s
  | .setSocket s => some ((c.setSocket s).1, some (c.setSocket s).2)
  | .socketClosed => some (c.release, none)
  | .hushOutput hush => some ([], some { c with shell := c.shell.hushOutput hush })
  | .hushPrompt hush => some ([], some { c with shell := c.shell.hushPrompt hush })

/-- A sequence of calls of the console: the calls the shell makes on sockets, and the shell at the
end, `none` once it deleted itself; `none` outright where a call has undefined behaviour, a call
on the deleted shell included. -/
def run : Console σ κ → List (ShellCall κ) → Option (List (SocketCall κ) × Option (Console σ κ))
  | c, [] => some ([], some c)
  | c, call :: calls =>
    match c.step ev call with
    | none => none
    | some (out, none) => if calls.isEmpty then some (out, none) else none
    | some (out, some c') => (run c' calls).map fun (out', r) => (out ++ out', r)

/-- The socket the shell holds has not been let go of, and before it holds one it has let go of
none. -/
def Fresh (rel : Finset κ) (c : Console σ κ) : Prop :=
  match c.socket with
  | some s => s ∉ rel
  | none => rel = ∅

theorem Fresh.getD_not_mem {rel : Finset κ} {c : Console σ κ} (h : c.Fresh rel) (s : κ) :
    c.socket.getD s ∉ rel := by
  unfold Fresh at h
  split at h
  · rename_i s' hs
    rwa [hs]
  · rename_i hs
    simp [hs, h]

end Console

/-! ### Letting go of a socket -/

variable [DecidableEq κ]

/-- A trace of calls on sockets in which no socket is called once it was let go of (by
`OnRequestComplete()`), unless `SetShell(this)` took it back; `rel` holds the sockets let go of
before the trace. -/
def NoUseAfterRelease : Finset κ → List (SocketCall κ) → Prop
  | _, [] => True
  | rel, .setShell s true :: t => NoUseAfterRelease (rel.erase s) t
  | rel, .setShell s false :: t => s ∉ rel ∧ NoUseAfterRelease rel t
  | rel, .onRequestComplete s :: t => s ∉ rel ∧ NoUseAfterRelease (insert s rel) t
  | rel, .send s _ :: t => s ∉ rel ∧ NoUseAfterRelease rel t
  | rel, .sendPrompt s :: t => s ∉ rel ∧ NoUseAfterRelease rel t

instance NoUseAfterRelease.decidable :
    (rel : Finset κ) → (t : List (SocketCall κ)) → Decidable (NoUseAfterRelease rel t)
  | _, [] => isTrue trivial
  | rel, .setShell s true :: t => NoUseAfterRelease.decidable (rel.erase s) t
  | rel, .setShell _ false :: t =>
    @instDecidableAnd _ _ _ (NoUseAfterRelease.decidable rel t)
  | rel, .onRequestComplete s :: t =>
    @instDecidableAnd _ _ _ (NoUseAfterRelease.decidable (insert s rel) t)
  | rel, .send _ _ :: t => @instDecidableAnd _ _ _ (NoUseAfterRelease.decidable rel t)
  | rel, .sendPrompt _ :: t => @instDecidableAnd _ _ _ (NoUseAfterRelease.decidable rel t)

/-- The sockets let go of after a trace, and not taken back, from those of `rel`. -/
def released : Finset κ → List (SocketCall κ) → Finset κ
  | rel, [] => rel
  | rel, .setShell s true :: t => released (rel.erase s) t
  | rel, .onRequestComplete s :: t => released (insert s rel) t
  | rel, .setShell _ false :: t => released rel t
  | rel, .send _ _ :: t => released rel t
  | rel, .sendPrompt _ :: t => released rel t

theorem released_append (a b : List (SocketCall κ)) (rel : Finset κ) :
    released rel (a ++ b) = released (released rel a) b := by
  induction a generalizing rel with
  | nil => rfl
  | cons c a ih =>
    cases c with
    | setShell s attach => cases attach <;> exact ih _
    | onRequestComplete s => exact ih _
    | send s reply => exact ih _
    | sendPrompt s => exact ih _

theorem noUseAfterRelease_append (a b : List (SocketCall κ)) (rel : Finset κ) :
    NoUseAfterRelease rel (a ++ b) ↔
      NoUseAfterRelease rel a ∧ NoUseAfterRelease (released rel a) b := by
  induction a generalizing rel with
  | nil => simp [NoUseAfterRelease, released]
  | cons c a ih =>
    cases c with
    | setShell s attach =>
      cases attach <;> simp [NoUseAfterRelease, released, ih, and_assoc]
    | onRequestComplete s => simp [NoUseAfterRelease, released, ih, and_assoc]
    | send s reply => simp [NoUseAfterRelease, released, ih, and_assoc]
    | sendPrompt s => simp [NoUseAfterRelease, released, ih, and_assoc]

namespace Console

variable {ev}

theorem release_noUseAfterRelease {rel : Finset κ} {c : Console σ κ} (h : c.Fresh rel) :
    NoUseAfterRelease rel c.release := by
  unfold Fresh at h
  unfold release
  split <;> simp_all [NoUseAfterRelease]

/-- **One call of the console** calls no socket the shell has let go of, and leaves the socket it
holds, if it lives on, among those it has not let go of. -/
theorem step_noUseAfterRelease {rel : Finset κ} {c : Console σ κ} (h : c.Fresh rel)
    {call : ShellCall κ} {out : List (SocketCall κ)} {r : Option (Console σ κ)}
    (hs : c.step ev call = some (out, r)) :
    NoUseAfterRelease rel out ∧ ∀ c', r = some c' → c'.Fresh (released rel out) := by
  cases call with
  | eval expr s =>
    obtain ⟨⟨retstr, sh⟩, -, hs⟩ := Option.map_eq_some'.1 hs
    have hn := h.getD_not_mem s
    dsimp only at hs
    split at hs <;> obtain ⟨rfl, rfl⟩ := Prod.mk.inj hs
    · refine ⟨?_, fun _ h' => by cases h'⟩
      simp [NoUseAfterRelease, release, hn]
    · refine ⟨by simp [NoUseAfterRelease, hn], fun c' h' => ?_⟩
      cases h'
      exact hn
  | setSocket s =>
    cases hs
    refine ⟨(noUseAfterRelease_append _ _ _).2
      ⟨release_noUseAfterRelease h, by simp [NoUseAfterRelease]⟩, fun c' h' => ?_⟩
    cases h'
    simp [Fresh, setSocket, released_append, released, Finset.not_mem_erase]
  | socketClosed =>
    cases hs
    exact ⟨release_noUseAfterRelease h, fun _ h' => by cases h'⟩
  | hushOutput hush =>
    cases hs
    exact ⟨trivial, fun c' h' => by cases h'; exact h⟩
  | hushPrompt hush =>
    cases hs
    exact ⟨trivial, fun c' h' => by cases h'; exact h⟩

/-- A sequence of calls on a shell whose socket has not been let go of calls no socket the shell
has let go of. -/
theorem run_noUseAfterRelease_of_fresh {rel : Finset κ} {c : Console σ κ} (h : c.Fresh rel)
    {calls : List (ShellCall κ)} {out : List (SocketCall κ)} {r : Option (Console σ κ)}
    (hr : c.run ev calls = some (out, r)) : NoUseAfterRelease rel out := by
  induction calls generalizing c rel out r with
  | nil =>
    cases hr
    trivial
  | cons call calls ih =>
    simp only [run] at hr
    split at hr
    · cases hr
    · rename_i out₁ hs
      split at hr
      · cases hr
        exact (step_noUseAfterRelease h hs).1
      · cases hr
    · rename_i out₁ c' hs
      obtain ⟨⟨out₂, r₂⟩, hr₂, hr⟩ := Option.map_eq_some'.1 hr
      cases hr
      obtain ⟨h₁, hc'⟩ := step_noUseAfterRelease h hs
      exact (noUseAfterRelease_append _ _ _).2 ⟨h₁, ih (hc' c' rfl) hr₂⟩

/-- **Whatever the console calls, in whatever order, the shell never calls a socket it has let go
of**: from the constructor, a socket the shell called `OnRequestComplete()` on gets no further
call from it unless `set_socket` took it back. -/
theorem run_noUseAfterRelease (e : σ) {calls : List (ShellCall κ)} {out : List (SocketCall κ)}
    {r : Option (Console σ κ)} (hr : (init e).run ev calls = some (out, r)) :
    NoUseAfterRelease ∅ out :=
  run_noUseAfterRelease_of_fresh (show (init e : Console σ κ).Fresh ∅ from rfl) hr

/-- A line on socket `7`, a move to socket `8`, and ^D, which comes in on socket `7` but is
answered on socket `8`, the one the shell holds. -/
example : (init () : Console Unit ℕ).run ⟨fun _ => false, id, fun s l => (l, s), fun _ => false⟩
    [.eval (ascii "1") 7, .setSocket 8, .eval [eot] 7] =
      some ([.send 7 (ascii "1\n> "), .setShell 7 false, .onRequestComplete 7, .setShell 8 true,
        .send 8 (ascii "Exiting the shell\n"), .sendPrompt 8, .setShell 8 false,
        .onRequestComplete 8], none) := rfl

/-- A line on socket `7`, a move to socket `8`, and ^D. -/
theorem run_noUseAfterRelease_moved :
    ∃ out r, (init () : Console Unit ℕ).run ⟨fun _ => false, id, fun s l => (l, s), fun _ => false⟩
        [.eval (ascii "1") 7, .setSocket 8, .eval [eot] 7] = some (out, r) ∧
      NoUseAfterRelease ∅ out :=
  have ⟨p, h⟩ : ∃ p, (init () : Console Unit ℕ).run
      ⟨fun _ => false, id, fun s l => (l, s), fun _ => false⟩
      [.eval (ascii "1") 7, .setSocket 8, .eval [eot] 7] = some p := ⟨_, rfl⟩
  ⟨p.1, p.2, h, run_noUseAfterRelease () h⟩

end Console

end Shell

end OpenCog
