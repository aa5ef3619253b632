import TcpUdpProxy.ConfigurationErrors
import TcpUdpProxy.Library.WhileLoop

/-!
The loop of `init` that reads the configuration. It asks for the end of the file before each `getline` and
does not look at what `getline` has returned.
-/

namespace TcpUdpProxy.SharedData

open WhileLoop

/-- What comes behind the last newline of the file, up to its end or to the place that cannot be read. -/
inductive Ending
  | endOfFile (rest : Line)
  | error (rest : Line) (bad : Bool)

structure Ifstream where
  lines : List Line
  ending : Ending
  eofbit : Bool
  failbit : Bool
  badbit : Bool
  extracted : ℕ

namespace Ifstream

def opened (lines : List Line) (ending : Ending) : Ifstream := ⟨lines, ending, false, false, false, 0⟩

def good (fin : Ifstream) : Bool := !fin.eofbit && !fin.failbit && !fin.badbit

def eof (fin : Ifstream) : Bool := fin.eofbit

/-- The second component is the string that was passed; a stream that is not good leaves it alone. -/
def getline (fin : Ifstream) (line : Line) : Ifstream × Line :=
  if fin.good then
    let fin := { fin with extracted := fin.extracted + 1 }
    match fin.lines with
    | next :: lines => ({ fin with lines := lines }, next)
    | [] =>
      match fin.ending with
      | .endOfFile rest => ({ fin with eofbit := true, failbit := rest.isEmpty }, rest)
      | .error rest bad => ({ fin with failbit := !bad, badbit := bad }, rest)
  else ({ fin with failbit := true }, line)

end Ifstream

/-- `handled` are the numbers of the texts that the rounds of the loop have worked on. -/
structure Reading where
  fin : Ifstream
  line : Line
  state : State
  handled : List ℕ

def Reading.begin (vars : Vars) (lines : List Line) (ending : Ending) : Reading :=
  ⟨.opened lines ending, [], SharedData.start vars, []⟩

def Reading.round (cfg : Config) (r : Reading) : Reading :=
  let (fin, line) := r.fin.getline r.line
  ⟨fin, trim line, handleLine cfg r.state line, r.handled ++ [fin.extracted]⟩

def load (cfg : Config) (fuel : ℕ) (r : Reading) : Option Reading :=
  loop (fun r => !r.fin.eof) (Reading.round cfg) fuel r

def LoadingEnds (cfg : Config) (vars : Vars) (lines : List Line) (ending : Ending) : Prop :=
  ∃ fuel r, load cfg fuel (.begin vars lines ending) = some r ∧ r.handled.Nodup

variable {cfg : Config} {vars : Vars} {texts : List Line} {rest : Line} {r : Reading}

structure Reads (cfg : Config) (vars : Vars) (texts : List Line) (rest : Line) (r : Reading) : Prop where
  ending : r.fin.ending = .endOfFile rest
  handled : r.handled = List.range' 1 r.fin.extracted
  progress : r.fin.eof = false → r.fin.good = true ∧ ∃ done, texts = done ++ (r.fin.lines ++ [rest]) ∧
    r.state = run cfg vars done
  done : r.fin.eof = true → r.state = run cfg vars texts

def Reading.remaining (r : Reading) : ℕ := if r.fin.eof then 0 else r.fin.lines.length + 1

theorem reads_begin (lines : List Line) :
    Reads cfg vars (lines ++ [rest]) rest (.begin vars lines (.endOfFile rest)) where
  ending := rfl
  handled := rfl
  progress _ := ⟨rfl, [], rfl, rfl⟩
  done := nofun

theorem range'_snoc (n : ℕ) : List.range' 1 n ++ [n + 1] = List.range' 1 (n + 1) := by
  rw [List.range'_concat, Nat.one_mul, Nat.add_comm 1 n]

theorem reads_round (hr : Reads cfg vars texts rest r) (heof : r.fin.eof = false) :
    Reads cfg vars texts rest (r.round cfg) ∧ (r.round cfg).remaining < r.remaining := by
  obtain ⟨hgood, done, htexts, hstate⟩ := hr.progress heof
  have heofbit : r.fin.eofbit = false := heof
  have hhandled : r.handled ++ [r.fin.extracted + 1] = List.range' 1 (r.fin.extracted + 1) := by
    rw [hr.handled, range'_snoc]
  unfold Reading.remaining Reading.round Ifstream.getline
  rw [if_pos hgood]
  dsimp only
  cases hlines : r.fin.lines with
  | cons next lines =>
    dsimp only
    refine ⟨⟨hr.ending, hhandled, fun _ => ⟨hgood, done ++ [next], ?_, ?_⟩, ?_⟩, ?_⟩
    · rw [htexts, hlines, List.append_assoc]
      rfl
    · rw [run_concat, hstate]
    · intro hend
      exact absurd (heof.symm.trans hend) Bool.false_ne_true
    · simp [Ifstream.eof, heofbit]
  | nil =>
    rw [hr.ending]
    dsimp only
    refine ⟨⟨rfl, hhandled, nofun, fun _ => ?_⟩, ?_⟩
    · rw [htexts, hlines, List.nil_append, run_concat, hstate]
    · simp [Ifstream.eof, heofbit]

theorem load_endOfFile (cfg : Config) (vars : Vars) (lines : List Line) (rest : Line) :
    ∃ fuel r, load cfg fuel (.begin vars lines (.endOfFile rest)) = some r ∧ r.handled.Nodup ∧
      r.state = run cfg vars (lines ++ [rest]) := by
  have hround : ∀ r, Reads cfg vars (lines ++ [rest]) rest r → (!r.fin.eof) = true →
      Reads cfg vars (lines ++ [rest]) rest (r.round cfg) ∧ (r.round cfg).remaining < r.remaining := by
    intro r hr heof
    exact reads_round hr (by simpa using heof)
  obtain ⟨r, hload, hr, heof⟩ := loop_ends hround (reads_begin lines) (le_refl _)
  refine ⟨_, r, hload, ?_, hr.done (by simpa using heof)⟩
  rw [hr.handled]
  exact List.nodup_range' ..

def Unreadable (r : Reading) : Prop := r.fin.eof = false ∧ ∃ rest bad, r.fin.ending = .error rest bad

theorem getline_error {fin : Ifstream} {bad : Bool} (heof : fin.eof = false)
    (hending : fin.ending = .error rest bad) (line : Line) :
    (fin.getline line).1.eof = false ∧ (fin.getline line).1.ending = .error rest bad := by
  unfold Ifstream.getline
  by_cases hgood : fin.good = true
  · rw [if_pos hgood]
    cases hlines : fin.lines with
    | cons next lines => exact ⟨heof, hending⟩
    | nil =>
      rw [hending]
      exact ⟨heof, rfl⟩
  · rw [if_neg hgood]
    exact ⟨heof, hending⟩

theorem unreadable_round (hr : Unreadable r) : Unreadable (r.round cfg) := by
  obtain ⟨heof, rest, bad, hending⟩ := hr
  obtain ⟨heof', hending'⟩ := getline_error heof hending r.line
  exact ⟨heof', rest, bad, hending'⟩

theorem load_error (cfg : Config) (vars : Vars) (lines : List Line) (rest : Line) (bad : Bool) (fuel : ℕ) :
    load cfg fuel (.begin vars lines (.error rest bad)) = none := by
  apply loop_diverges (I := Unreadable)
  · intro r hr
    refine ⟨?_, unreadable_round hr⟩
    rw [hr.1]
    rfl
  · exact ⟨rfl, rest, bad, rfl⟩

theorem loadingEnds_iff (cfg : Config) (vars : Vars) (lines : List Line) (ending : Ending) :
    LoadingEnds cfg vars lines ending ↔ ∃ rest, ending = .endOfFile rest := by
  cases ending with
  | endOfFile rest =>
    refine iff_of_true ?_ ⟨rest, rfl⟩
    obtain ⟨fuel, r, hload, hnodup, -⟩ := load_endOfFile cfg vars lines rest
    exact ⟨fuel, r, hload, hnodup⟩
  | error rest bad =>
    refine iff_of_false ?_ nofun
    rintro ⟨fuel, r, hload, -⟩
    rw [load_error] at hload
    cases hload

/-- A directory can be opened, and the first read of it fails. -/
theorem directory_never_loaded : ¬ ∀ (cfg : Config) (vars : Vars) (lines : List Line) (ending : Ending),
    LoadingEnds cfg vars lines ending := by
  intro hclaim
  obtain ⟨fuel, r, hload, -⟩ := hclaim ⟨fun _ => none, fun _ _ => true, false⟩ ⟨[], 0, [], 0, 0, 0, 0⟩ []
    (.error [] true)
  rw [load_error] at hload
  cases hload

end TcpUdpProxy.SharedData
