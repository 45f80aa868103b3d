import Mathlib.Algebra.Group.Nat.Basic
import Mathlib.Algebra.Ring.Int.Defs
import Mathlib.Data.List.Basic

/-!
# The telnet handling of the shell

`GenericShell::do_eval` receives one line from the console socket.  Before the line reaches the
evaluator it looks, from the end of the line back over at most 20 bytes, for a telnet command
(RFC 854): `IAC IP` or `IAC AO` abort the pending input, `IAC EL` drops the line.  A line ending in
^C, ^X or ^[ is dropped as well, and ^D or a lone `.` leave the shell.  The positions of the scan
are `int`s computed from the `size_t` length (`int i = len-2; int m = len - 20;`).

The evaluator (`GenericEval`) is not under `src/`; its methods are parameters over an evaluator
state.  This file proves:

* `iacLoop_command`, `iacLoop_done` : the loop stops at the last command of its window, or runs
  off it;
* `doEval_spec` : **for every line of at most `2^31` bytes** `do_eval` reads only the line and
  does what its comments say;
* `doEval_long_line` : a line of `2^31 + 2` bytes ending in `IAC IP` is evaluated, since
  `len - 2 = 2^31` converts to a negative `int` and the loop does not run.

The evaluator receives `input.c_str()`, which a NUL byte cuts short (`cStr`).
-/

namespace OpenCog

/-- A `std::string`, as its bytes. -/
abbrev Bytes := List UInt8

/-- The bytes of an ASCII text. -/
def ascii (s : String) : Bytes := s.toList.map fun c => c.toNat.toUInt8

/-- `s.c_str()` read as a C string: the bytes of `s` before its first NUL. -/
def cStr (s : Bytes) : Bytes := s.takeWhile (· != 0)

/-- `(int) (a - b)` for `size_t` values `a` and `b`: the difference modulo `2^64`, then its low 32
bits in two's complement, the conversion GCC and Clang make. -/
def intOfSizeSub (a b : ℕ) : ℤ := Int.bmod (((a : ℤ) - b) % 2 ^ 64) (2 ^ 32)

namespace Shell

/-! ### The model -/

/-- Telnet Interpret As Command (RFC 854). -/
def iac : UInt8 := 0xff
/-- Telnet Interrupt Process. -/
def ip : UInt8 := 0xf4
/-- Telnet Abort Output. -/
def ao : UInt8 := 0xf5
/-- Telnet Erase Line. -/
def el : UInt8 := 0xf8
/-- Telnet WILL. -/
def will : UInt8 := 0xfb
/-- Telnet timing mark (RFC 860). -/
def timingMark : UInt8 := 0x6
/-- End of transmission, ^D at the keyboard. -/
def eot : UInt8 := 0x4
/-- ^C at the keyboard. -/
def syn : UInt8 := 0x16
/-- Cancel, ^X at the keyboard. -/
def can : UInt8 := 0x18
/-- Escape, ^[ at the keyboard. -/
def esc : UInt8 := 0x1b

/-- The evaluator behind the shell, `GenericEval`, whose header is not under `src/`: its methods
over an evaluator state `σ`. -/
structure GenericEval (σ : Type) where
  /-- `input_pending()`: an expression is incomplete. -/
  inputPending : σ → Bool
  /-- `clear_pending()`. -/
  clearPending : σ → σ
  /-- `eval(input)`: the output and the state after it. -/
  eval : σ → Bytes → Bytes × σ
  /-- `eval_error()`. -/
  evalError : σ → Bool

/-- The members of `GenericShell` that `do_eval` reads and writes. -/
structure GenericShell (σ : Type) where
  /-- `show_output`. -/
  showOutput : Bool
  /-- `show_prompt`. -/
  showPrompt : Bool
  /-- `normal_prompt`. -/
  normalPrompt : Bytes
  /-- `pending_prompt`, while an expression is incomplete. -/
  pendingPrompt : Bytes
  /-- `abort_prompt`. -/
  abortPrompt : Bytes
  /-- `self_destruct`: the caller deletes the shell after the reply. -/
  selfDestruct : Bool
  /-- The state of `evaluator`. -/
  evaluator : σ

variable {σ : Type} (ev : GenericEval σ)

/-- The constructor: both flags set, the prompts `"> "` and `"... "`, and `IAC WILL TIMING-MARK`
followed by a newline as the abort prompt. -/
def GenericShell.init (e : σ) : GenericShell σ :=
  ⟨true, true, ascii "> ", ascii "... ", [iac, will, timingMark] ++ ascii "\n", false, e⟩

/-- `get_prompt`. -/
def getPrompt (sh : GenericShell σ) : Bytes :=
  if !sh.showPrompt then []
  else if ev.inputPending sh.evaluator then sh.pendingPrompt
  else sh.normalPrompt

/-- What the IAC loop of `do_eval` ends with. -/
inductive IacScan
  /-- `IAC IP` or `IAC AO`. -/
  | abort
  /-- `IAC EL`. -/
  | eraseLine
  /-- The loop ran out of positions. -/
  | done
  deriving DecidableEq, Repr

/-- The body of the IAC loop at position `i`, with `next` the rest of the loop after `i--`;
`none` where `i + 1` overflows `int`, or where a read falls outside the line. -/
def iacStep (expr : Bytes) (i : ℕ) (next : Option IacScan) : Option IacScan :=
  match expr[i]? with
  | none => none
  | some c =>
    if c = iac then
      if i + 1 < 2 ^ 31 then
        match expr[i + 1]? with
        | none => none
        | some c =>
          if c = ip ∨ c = ao then some .abort
          else if c = el then some .eraseLine
          else next
      else none
    else next

/-- `while (m <= i) { ...; i--; }` from a position `i ≥ 0` down to `m ≥ 0`. -/
def iacLoop (expr : Bytes) (m : ℕ) : ℕ → Option IacScan
  | 0 => if m ≤ 0 then iacStep expr 0 (some .done) else some .done
  | i + 1 => if m ≤ i + 1 then iacStep expr (i + 1) (iacLoop expr m i) else some .done

/-- The IAC loop with its bounds: `int i = len-2; int m = len - 20; if (m < 0) m = 0;`. -/
def iacScan (expr : Bytes) : Option IacScan :=
  let i := intOfSizeSub expr.length 2
  let m := intOfSizeSub expr.length 20
  let m := if m < 0 then 0 else m
  if m ≤ i then iacLoop expr m.toNat i.toNat else some .done

/-- The evaluation of a line: `input = expr + "\n"` goes to the evaluator as `input.c_str()`, so
only up to its first NUL byte, and the reply is the pending prompt while input is pending, the
output otherwise. -/
def evalLine (sh : GenericShell σ) (expr : Bytes) : Bytes × GenericShell σ :=
  let input := expr ++ ascii "\n"
  let (result, e) := ev.eval sh.evaluator (cStr input)
  let sh := { sh with evaluator := e }
  if ev.inputPending e then
    (if sh.showOutput && sh.showPrompt then sh.pendingPrompt else [], sh)
  else if sh.showOutput || ev.evalError e then
    (if sh.showPrompt then result ++ sh.normalPrompt else result, sh)
  else ([], sh)

/-- The end of `do_eval`, after the IAC loop: ^C, ^X and ^[ drop the line, ^D or a lone `.` leave
the shell, anything else is evaluated. -/
def endOfLine (sh : GenericShell σ) (expr : Bytes) : Option (Bytes × GenericShell σ) :=
  match expr[expr.length - 1]? with
  | none => none
  | some c =>
    if c = syn ∨ c = can ∨ c = esc then
      some (ascii "\n" ++ sh.normalPrompt, { sh with evaluator := ev.clearPending sh.evaluator })
    else if ev.inputPending sh.evaluator = false ∧
        (c = eot ∨ (expr.length = 1 ∧ expr[0]? = some '.'.toNat.toUInt8)) then
      some (if sh.showPrompt then ascii "Exiting the shell\n" else [], { sh with selfDestruct := true })
    else some (evalLine ev sh expr)

/-- `GenericShell::do_eval`: the reply and the shell after it; `none` where the behaviour is
undefined. -/
def doEval (sh : GenericShell σ) (expr : Bytes) : Option (Bytes × GenericShell σ) :=
  if expr.length = 0 then some (getPrompt ev sh, sh)
  else
    match iacScan expr with
    | none => none
    | some .abort => some (sh.abortPrompt, { sh with evaluator := ev.clearPending sh.evaluator })
    | some .eraseLine => some (getPrompt ev sh, sh)
    | some .done => endOfLine ev sh expr

/-! ### The scan -/

/-- A telnet command at position `k`: `IAC` followed by `IP`, `AO` or `EL`. -/
def TelnetCommandAt (expr : Bytes) (k : ℕ) : Prop :=
  expr[k]? = some iac ∧ (expr[k + 1]? = some ip ∨ expr[k + 1]? = some ao ∨ expr[k + 1]? = some el)

instance (expr : Bytes) (k : ℕ) : Decidable (TelnetCommandAt expr k) :=
  inferInstanceAs (Decidable (_ ∧ _))

/-- What the loop makes of the command at `k`. -/
def commandAt (expr : Bytes) (k : ℕ) : IacScan :=
  if expr[k + 1]? = some el then .eraseLine else .abort

variable {ev}

theorem intOfSizeSub_eq {a b : ℕ} (h₁ : b ≤ a + 2 ^ 31) (h₂ : a < b + 2 ^ 31) :
    intOfSizeSub a b = a - b := by
  simp only [intOfSizeSub, Int.bmod_def]
  split <;> omega

example : intOfSizeSub (2 ^ 31 + 2) 2 = -2 ^ 31 := by decide

theorem iacStep_command {expr : Bytes} {i : ℕ} (h : TelnetCommandAt expr i) (hi : i + 1 < 2 ^ 31)
    (next : Option IacScan) : iacStep expr i next = some (commandAt expr i) := by
  have hi' : i + 1 < 2147483648 := hi
  obtain ⟨h0, h1 | h1 | h1⟩ := h <;> simp [iacStep, commandAt, h0, h1, hi'] <;> decide

theorem iacStep_not_command {expr : Bytes} {i : ℕ} (h : ¬ TelnetCommandAt expr i)
    (hi : i + 1 < 2 ^ 31) (hlen : i + 1 < expr.length) (next : Option IacScan) :
    iacStep expr i next = next := by
  have h0 : i < expr.length := by omega
  simp only [TelnetCommandAt, List.getElem?_eq_getElem h0, List.getElem?_eq_getElem hlen,
    Option.some.injEq, not_and] at h
  simp only [iacStep, List.getElem?_eq_getElem h0, List.getElem?_eq_getElem hlen, hi, ite_true]
  split_ifs with h1 h2 h3
  · exact absurd (h2.elim .inl (.inr ∘ .inl)) (h h1)
  · exact absurd (.inr (.inr h3)) (h h1)
  all_goals rfl

/-- With no command among the positions `m..i`, the loop runs off the window. -/
theorem iacLoop_done {expr : Bytes} {m i : ℕ}
    (hno : ∀ k, m ≤ k → k ≤ i → ¬ TelnetCommandAt expr k) (hlen : i + 1 < expr.length)
    (hi : i + 1 < 2 ^ 31) : iacLoop expr m i = some .done := by
  induction i with
  | zero =>
    simp only [iacLoop]
    split
    · exact iacStep_not_command (hno 0 ‹_› le_rfl) hi hlen _
    · rfl
  | succ i ih =>
    simp only [iacLoop]
    split
    · rw [iacStep_not_command (hno _ ‹_› le_rfl) hi hlen,
        ih (fun k h₁ h₂ => hno k h₁ (by omega)) (by omega) (by omega)]
    · rfl

/-- The loop stops at the last command among the positions `m..i`. -/
theorem iacLoop_command {expr : Bytes} {m i k : ℕ} (hmk : m ≤ k) (hki : k ≤ i)
    (hk : TelnetCommandAt expr k) (hlast : ∀ k', k < k' → k' ≤ i → ¬ TelnetCommandAt expr k')
    (hlen : i + 1 < expr.length) (hi : i + 1 < 2 ^ 31) :
    iacLoop expr m i = some (commandAt expr k) := by
  induction i with
  | zero =>
    obtain rfl : k = 0 := by omega
    simp only [iacLoop, show m ≤ 0 by omega, ite_true]
    exact iacStep_command hk hi _
  | succ i ih =>
    simp only [iacLoop, show m ≤ i + 1 by omega, ite_true]
    rcases Nat.lt_or_eq_of_le hki with hlt | rfl
    · rw [iacStep_not_command (hlast _ (by omega) le_rfl) hi hlen,
        ih (by omega) (fun k' h₁ h₂ => hlast k' h₁ (by omega)) (by omega) (by omega)]
    · exact iacStep_command hk hi _

/-- For a line of at most `2^31` bytes the conversions to `int` are exact: the loop runs over the
positions `max 0 (len-20) .. len-2`. -/
theorem iacScan_eq {expr : Bytes} (h₁ : 2 ≤ expr.length) (h₂ : expr.length ≤ 2 ^ 31) :
    iacScan expr = iacLoop expr (expr.length - 20) (expr.length - 2) := by
  simp only [iacScan, intOfSizeSub_eq (by omega : 2 ≤ expr.length + 2 ^ 31) (by omega),
    intOfSizeSub_eq (by omega : 20 ≤ expr.length + 2 ^ 31) (by omega)]
  split_ifs <;> first | omega | congr 1 <;> omega

theorem iacScan_one {expr : Bytes} (h : expr.length = 1) : iacScan expr = some .done := by
  simp only [iacScan, h]
  rw [if_neg (by decide)]

theorem iacScan_command {expr : Bytes} (hlen : expr.length ≤ 2 ^ 31) {k : ℕ}
    (h₁ : expr.length - 20 ≤ k) (h₂ : k + 2 ≤ expr.length) (hk : TelnetCommandAt expr k)
    (hlast : ∀ k', k < k' → k' + 2 ≤ expr.length → ¬ TelnetCommandAt expr k') :
    iacScan expr = some (commandAt expr k) := by
  rw [iacScan_eq (by omega) hlen]
  exact iacLoop_command h₁ (by omega) hk (fun k' h h' => hlast k' h (by omega)) (by omega)
    (by omega)

theorem iacScan_done {expr : Bytes} (hne : expr ≠ []) (hlen : expr.length ≤ 2 ^ 31)
    (hno : ∀ k, expr.length - 20 ≤ k → k + 2 ≤ expr.length → ¬ TelnetCommandAt expr k) :
    iacScan expr = some .done := by
  have := List.length_pos.2 hne
  rcases Nat.lt_or_ge expr.length 2 with h | h
  · exact iacScan_one (by omega)
  · rw [iacScan_eq h hlen]
    exact iacLoop_done (fun k h₁ h₂ => hno k h₁ (by omega)) (by omega) (by omega)

theorem endOfLine_eq {sh : GenericShell σ} {expr : Bytes} {c : UInt8}
    (hc : expr.getLast? = some c) :
    endOfLine ev sh expr =
      if c = syn ∨ c = can ∨ c = esc then
        some (ascii "\n" ++ sh.normalPrompt, { sh with evaluator := ev.clearPending sh.evaluator })
      else if ev.inputPending sh.evaluator = false ∧ (c = eot ∨ expr = ['.'.toNat.toUInt8]) then
        some (if sh.showPrompt then ascii "Exiting the shell\n" else [],
          { sh with selfDestruct := true })
      else some (evalLine ev sh expr) := by
  rw [List.getLast?_eq_getElem?] at hc
  have hone : (expr.length = 1 ∧ expr[0]? = some '.'.toNat.toUInt8) ↔
      expr = ['.'.toNat.toUInt8] := by
    constructor
    · rintro ⟨h₁, h₂⟩
      obtain ⟨a, rfl⟩ := List.length_eq_one.1 h₁
      simpa using h₂
    · rintro rfl
      simp
  simp only [endOfLine, hc, hone]

/-- **What `do_eval` does with a line of at most `2^31` bytes.**  An empty line gives the prompt.
Otherwise the last telnet command among the positions `max 0 (len-20) .. len-2` decides: after
`IAC EL` the line is dropped, after `IAC IP` or `IAC AO` the pending input is cleared and the
abort prompt returned.  Without one, a line ending in ^C, ^X or ^[ clears the pending input; a
line ending in ^D, or a lone `.`, with no input pending, sets `self_destruct`; and only any other
line goes to the evaluator, as `expr + "\n"` up to its first NUL byte. -/
theorem doEval_spec (sh : GenericShell σ) (expr : Bytes) (hlen : expr.length ≤ 2 ^ 31) :
    (expr = [] → doEval ev sh expr = some (getPrompt ev sh, sh)) ∧
    (∀ k, expr.length - 20 ≤ k → k + 2 ≤ expr.length → TelnetCommandAt expr k →
      (∀ k', k < k' → k' + 2 ≤ expr.length → ¬ TelnetCommandAt expr k') →
      doEval ev sh expr = if expr[k + 1]? = some el then some (getPrompt ev sh, sh)
        else some (sh.abortPrompt, { sh with evaluator := ev.clearPending sh.evaluator })) ∧
    ((∀ k, expr.length - 20 ≤ k → k + 2 ≤ expr.length → ¬ TelnetCommandAt expr k) →
      ∀ c, expr.getLast? = some c →
      doEval ev sh expr =
        if c = syn ∨ c = can ∨ c = esc then
          some (ascii "\n" ++ sh.normalPrompt, { sh with evaluator := ev.clearPending sh.evaluator })
        else if ev.inputPending sh.evaluator = false ∧ (c = eot ∨ expr = ['.'.toNat.toUInt8]) then
          some (if sh.showPrompt then ascii "Exiting the shell\n" else [],
            { sh with selfDestruct := true })
        else some (evalLine ev sh expr)) := by
  refine ⟨fun he => by simp [doEval, he], fun k h₁ h₂ hk hlast => ?_, fun hno c hc => ?_⟩
  · have hne : expr.length ≠ 0 := by omega
    rw [doEval, if_neg hne, iacScan_command hlen h₁ h₂ hk hlast, commandAt]
    by_cases hel : expr[k + 1]? = some el <;> simp only [hel, ite_true, ite_false]
  · have hne : expr ≠ [] := by
      rintro rfl
      cases hc
    rw [doEval, if_neg (by simpa using hne), iacScan_done hne hlen hno, endOfLine_eq hc]

theorem doEval_spec_iac_ip :
    [iac, ip].length ≤ 2 ^ 31 ∧
    (([iac, ip] : Bytes) = [] → doEval ⟨fun _ => false, id, fun s l => (l, s), fun _ => false⟩
        (GenericShell.init ()) [iac, ip] =
      some (getPrompt ⟨fun _ => false, id, fun s l => (l, s), fun _ => false⟩
        (GenericShell.init ()), GenericShell.init ())) ∧
    (∀ k, [iac, ip].length - 20 ≤ k → k + 2 ≤ [iac, ip].length → TelnetCommandAt [iac, ip] k →
      (∀ k', k < k' → k' + 2 ≤ [iac, ip].length → ¬ TelnetCommandAt [iac, ip] k') →
      doEval ⟨fun _ => false, id, fun s l => (l, s), fun _ => false⟩ (GenericShell.init ())
          [iac, ip] =
        if [iac, ip][k + 1]? = some el then
          some (getPrompt ⟨fun _ => false, id, fun s l => (l, s), fun _ => false⟩
            (GenericShell.init ()), GenericShell.init ())
        else some ((GenericShell.init ()).abortPrompt, { GenericShell.init () with evaluator := () })) ∧
    ((∀ k, [iac, ip].length - 20 ≤ k → k + 2 ≤ [iac, ip].length → ¬ TelnetCommandAt [iac, ip] k) →
      ∀ c, [iac, ip].getLast? = some c →
      doEval ⟨fun _ => false, id, fun s l => (l, s), fun _ => false⟩ (GenericShell.init ())
          [iac, ip] =
        if c = syn ∨ c = can ∨ c = esc then
          some (ascii "\n" ++ (GenericShell.init ()).normalPrompt,
            { GenericShell.init () with evaluator := () })
        else if false = false ∧ (c = eot ∨ [iac, ip] = ['.'.toNat.toUInt8]) then
          some (if (GenericShell.init ()).showPrompt then ascii "Exiting the shell\n" else [],
            { GenericShell.init () with selfDestruct := true })
        else some (evalLine ⟨fun _ => false, id, fun s l => (l, s), fun _ => false⟩
          (GenericShell.init ()) [iac, ip])) :=
  ⟨by decide, doEval_spec (GenericShell.init ()) [iac, ip] (by decide)⟩

/-- A line of `2^31 + 2` bytes ending in `IAC IP`.  `len - 2 = 2^31` converts to the negative
`int` `-2^31`, so the loop does not run: the command is in the window, yet the line goes to the
evaluator, whole, since it holds no NUL byte. -/
theorem doEval_long_line (sh : GenericShell σ) :
    TelnetCommandAt (List.replicate 2147483648 97 ++ [iac, ip]) 2147483648 ∧
    doEval ev sh (List.replicate 2147483648 97 ++ [iac, ip]) =
      some (evalLine ev sh (List.replicate 2147483648 97 ++ [iac, ip])) ∧
    cStr (List.replicate 2147483648 97 ++ [iac, ip] ++ ascii "\n") =
      List.replicate 2147483648 97 ++ [iac, ip] ++ ascii "\n" := by
  have hrep : (List.replicate 2147483648 (97 : UInt8)).length = 2147483648 :=
    List.length_replicate _ _
  have hlen : (List.replicate 2147483648 (97 : UInt8) ++ [iac, ip]).length = 2147483650 := by
    rw [List.length_append, hrep]
    rfl
  have hscan : iacScan (List.replicate 2147483648 97 ++ [iac, ip]) = some .done := by
    rw [iacScan, hlen]
    exact if_neg (by decide)
  have hlast : (List.replicate 2147483648 (97 : UInt8) ++ [iac, ip]).getLast? = some ip := by
    rw [List.getLast?_append]
    rfl
  have hdot : List.replicate 2147483648 97 ++ [iac, ip] ≠ ['.'.toNat.toUInt8] := fun h => by
    have := congrArg List.length h
    rw [hlen] at this
    cases this
  refine ⟨⟨?_, .inl ?_⟩, ?_, ?_⟩
  · rw [List.getElem?_append_right (by rw [hrep]), hrep]
    rfl
  · rw [List.getElem?_append_right (by rw [hrep]; omega), hrep]
    rfl
  · rw [doEval, if_neg (by rw [hlen]; decide), hscan, endOfLine_eq hlast,
      if_neg (by decide), if_neg (fun h => by simp only [hdot, or_false] at h; cases h.2)]
  · -- no byte of the input is NUL
    refine List.takeWhile_eq_self_iff.2 fun x hx => ?_
    rw [List.append_assoc, List.mem_append, List.mem_replicate] at hx
    rcases hx with ⟨-, rfl⟩ | hx
    · rfl
    · revert x
      decide

end Shell

end OpenCog
