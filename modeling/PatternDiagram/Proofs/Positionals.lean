import Mathlib.Data.List.Chain
import PatternDiagram.Command.Arguments

/-!
# Patterns on the command line

Each argument is an option, the file behind one, or a positional: a pattern, or a dash.

* `Arguments.Word`, `Arguments.words`: the arguments, sorted in this way;
* `Arguments.positionals`: **the patterns and dashes among them**, in their order;
* `Arguments.parseFrom_eq_foldlM`: the arguments are taken word by word;
* `Arguments.parse_eq_ok_iff`: which arguments are accepted, and what was asked for then;
* `Arguments.parse_keeps_pattern_iff`: **the pattern is the last positional**, and it is the only
  one unless a dash stands beside it;
* `Arguments.dash_drops_pattern`: a dash takes back the pattern in front of it.
-/

namespace PatternDiagram.Arguments

/-! ## 1. Words -/

/-- One option, with the file that belongs to it, or one positional. -/
inductive Word where
  | json
  | ast
  | output (file : String)
  | noFile
  | help
  | positional (argument : String)
  deriving DecidableEq

/-- **What the arguments are.** Behind `-o` stands a file, whatever it looks like. -/
def words : List String → List Word
  | [] => []
  | "-o" :: file :: rest => .output file :: words rest
  | "--output" :: file :: rest => .output file :: words rest
  | ["-o"] => [.noFile]
  | ["--output"] => [.noFile]
  | "--json" :: rest => .json :: words rest
  | "--ast" :: rest => .ast :: words rest
  | "-h" :: rest => .help :: words rest
  | "--help" :: rest => .help :: words rest
  | argument :: rest => .positional argument :: words rest

namespace Word

def positional? : Word → Option String
  | .positional argument => some argument
  | _ => none

def file? : Word → Option String
  | .output file => some file
  | _ => none

/-- The words with which nothing is done. -/
def fault? : Word → Option ArgumentFault
  | .noFile => some .missingFile
  | .help => some .help
  | _ => none

end Word

/-- **The positionals**: all arguments that are neither options nor the files behind them. -/
def positionals (arguments : List String) : List String :=
  (words arguments).filterMap Word.positional?

/-- What one more word changes. -/
def take (a : Arguments) : Word → Except ArgumentFault Arguments
  | .json => .ok { a with json := true }
  | .ast => .ok { a with ast := true }
  | .output file => .ok { a with output := some file }
  | .noFile => .error .missingFile
  | .help => .error .help
  | .positional argument =>
      if argument = "-" then .ok { a with pattern := none }
      else if a.pattern.isSome then .error (.unexpected argument)
      else .ok { a with pattern := some argument }

/-- **The arguments are taken word by word.** -/
theorem parseFrom_eq_foldlM (a : Arguments) (arguments : List String) :
    parseFrom a arguments = (words arguments).foldlM take a := by
  fun_induction parseFrom a arguments with
  | case1 | case6 | case7 | case8 | case9 => rfl
  | case2 _ _ ih | case3 _ _ ih | case4 _ _ _ ih | case5 _ _ _ ih | case10 _ _ ih => exact ih
  | case11 a argument rest _ _ _ _ _ _ _ _ hdash hpattern ih =>
    rw [ih, words, List.foldlM_cons, take, if_neg hdash, hpattern]
    · rfl
    all_goals assumption
  | case12 a argument rest _ _ _ _ _ _ _ _ hdash _ hpattern =>
    rw [words, List.foldlM_cons, take, if_neg hdash, hpattern]
    · rfl
    all_goals assumption

/-! ## 2. What was asked for -/

/-- What words ask for if they can be taken. -/
def asked (ws : List Word) : Arguments where
  pattern := (ws.filterMap Word.positional?).getLast?.filter (· ≠ "-")
  output := (ws.filterMap Word.file?).getLast?
  json := .json ∈ ws
  ast := .ast ∈ ws

/-- **Words that can be taken**: nothing is wrong with any of them, and no pattern follows another
    one without a dash between them. -/
structure Takeable (ws : List Word) : Prop where
  faultless : ∀ w ∈ ws, w.fault? = none
  parted : (ws.filterMap Word.positional?).IsChain fun p q => p = "-" ∨ q = "-"

/-- One more word can be taken if nothing is wrong with it, and it is no second pattern. -/
theorem takeable_append_iff {ws : List Word} {w : Word} :
    Takeable (ws ++ [w]) ↔ Takeable ws ∧ w.fault? = none ∧
      ∀ q, w.positional? = some q → q = "-" ∨ (asked ws).pattern = none := by
  have hparted : ((ws ++ [w]).filterMap Word.positional?).IsChain (fun p q => p = "-" ∨ q = "-") ↔
      (ws.filterMap Word.positional?).IsChain (fun p q => p = "-" ∨ q = "-") ∧
        ∀ q, w.positional? = some q → q = "-" ∨ (asked ws).pattern = none := by
    rw [List.filterMap_append, List.isChain_append]
    cases hw : w.positional? with
    | none => simp [hw]
    | some q =>
      have hpattern : (asked ws).pattern = none ↔
          ∀ p ∈ (ws.filterMap Word.positional?).getLast?, p = "-" := by
        simp [asked, Option.filter_eq_none_iff]
      have hlast : (∀ p ∈ (ws.filterMap Word.positional?).getLast?, p = "-" ∨ q = "-") ↔
          q = "-" ∨ (asked ws).pattern = none := by
        rw [hpattern]
        by_cases hq : q = "-" <;> simp [hq]
      simpa [hw] using fun _ => hlast
  constructor
  · intro h
    obtain ⟨hfront, hlast⟩ := hparted.mp h.parted
    refine ⟨⟨?_, hfront⟩, h.faultless w (by simp), hlast⟩
    intro v hv
    exact h.faultless v (List.mem_append_left _ hv)
  · rintro ⟨h, hfault, hlast⟩
    refine ⟨?_, hparted.mpr ⟨h.parted, hlast⟩⟩
    intro v hv
    rcases List.mem_append.mp hv with hv | hv
    · exact h.faultless v hv
    · rw [List.mem_singleton.mp hv]
      exact hfault

/-- What words ask for, the last one taken apart. -/
theorem asked_append (ws : List Word) (w : Word) :
    asked (ws ++ [w]) =
      match w with
      | .json => { asked ws with json := true }
      | .ast => { asked ws with ast := true }
      | .output file => { asked ws with output := some file }
      | .positional argument =>
          { asked ws with pattern := if argument = "-" then none else some argument }
      | _ => asked ws := by
  cases w with
  | positional argument =>
    by_cases h : argument = "-" <;>
    simp [asked, Word.positional?, Word.file?, h, Option.filter]
  | _ => simp [asked, Word.positional?, Word.file?]

/-- **One word is taken just if it can be**, and gives what the words then ask for. -/
theorem take_asked_iff {ws : List Word} (h : Takeable ws) (w : Word) (b : Arguments) :
    take (asked ws) w = .ok b ↔ Takeable (ws ++ [w]) ∧ b = asked (ws ++ [w]) := by
  rw [takeable_append_iff, asked_append]
  cases w with
  | positional argument =>
    simp only [take, h, Word.fault?, Word.positional?, Option.some.injEq, forall_eq', true_and]
    by_cases hdash : argument = "-"
    · simp [hdash, eq_comm]
    · cases hpattern : (asked ws).pattern <;> simp [hdash, eq_comm]
  | _ => simp [take, h, Word.fault?, Word.positional?, eq_comm]

/-- Words are taken just if those in front of the last one are, and it is taken behind them. -/
theorem foldlM_append_iff {ws : List Word} {w : Word} {b : Arguments} :
    (ws ++ [w]).foldlM take {} = .ok b ↔ ∃ a, ws.foldlM take {} = .ok a ∧ take a w = .ok b := by
  have htake (a : Arguments) : [w].foldlM take a = take a w := by
    simp only [List.foldlM_cons, List.foldlM_nil]
    exact bind_pure _
  rw [List.foldlM_append]
  cases ws.foldlM take {} with
  | error f => simp [bind, Except.bind]
  | ok a =>
    simp only [Except.ok.injEq, exists_eq_left']
    rw [← htake a]
    exact Iff.rfl

/-- **Words are taken just if they can be, and give what they ask for.** The induction is on the
    words from the last one on, since this decides what the pattern is. -/
theorem foldlM_take_iff (ws : List Word) (b : Arguments) :
    ws.foldlM take {} = .ok b ↔ Takeable ws ∧ b = asked ws := by
  induction ws using List.reverseRecOn generalizing b with
  | nil =>
    have hnone : Takeable [] := ⟨by simp, .nil⟩
    simp only [hnone, true_and]
    exact ⟨fun h => (Except.ok.inj h).symm, fun h => h ▸ rfl⟩
  | append_singleton ws w ih =>
    rw [foldlM_append_iff]
    constructor
    · rintro ⟨a, hfront, hlast⟩
      obtain ⟨hws, rfl⟩ := (ih a).mp hfront
      exact (take_asked_iff hws w b).mp hlast
    · intro h
      have hws := (takeable_append_iff.mp h.1).1
      exact ⟨asked ws, (ih _).mpr ⟨hws, rfl⟩, (take_asked_iff hws w b).mpr h⟩

/-- Arguments are accepted just if their words can be taken, and then what they ask for is done. -/
theorem parse_eq_ok_iff (arguments : List String) (a : Arguments) :
    parse arguments = .ok a ↔ Takeable (words arguments) ∧ a = asked (words arguments) := by
  rw [parse, parseFrom_eq_foldlM, foldlM_take_iff]

/-! ## 3. The pattern -/

/-- Where no positional is a dash, there is at most one. -/
theorem length_le_of_parted {ps : List String} (h : ps.IsChain fun p q => p = "-" ∨ q = "-")
    (hdash : "-" ∉ ps) : ps.length ≤ 1 := by
  match ps with
  | [] | [_] => simp
  | p :: q :: _ =>
    rcases (List.isChain_cons_cons.mp h).1 with rfl | rfl
    all_goals simp at hdash

theorem eq_singleton_of_mem {ps : List String} {p : String} (hlength : ps.length ≤ 1)
    (hmem : p ∈ ps) : ps = [p] := by
  match ps with
  | [] => simp at hmem
  | [q] => rw [List.mem_singleton.mp hmem]
  | _ :: _ :: _ => simp at hlength

theorem getLast?_eq_head? {ps : List String} (hlength : ps.length ≤ 1) :
    ps.getLast? = ps.head? := by
  match ps with
  | [] | [_] => rfl
  | _ :: _ :: _ => simp at hlength

/-- **Which arguments are accepted, and what the pattern is then.** Nothing may be wrong with an
    option, and of two positionals that follow each other one has to be a dash. The pattern is the
    last positional, or the input if that is a dash. So the only positional is the pattern, and
    there is no other, just if no dash stands beside another positional. -/
theorem parse_keeps_pattern_iff (arguments : List String) :
    ((∃ a, parse arguments = .ok a) ↔
      (∀ w ∈ words arguments, w.fault? = none) ∧
        (positionals arguments).IsChain fun p q => p = "-" ∨ q = "-") ∧
    ∀ a, parse arguments = .ok a →
      a.pattern = (positionals arguments).getLast?.filter (· ≠ "-") ∧
      ((positionals arguments).length ≤ 1 ∧
          a.pattern = (positionals arguments).head?.filter (· ≠ "-") ↔
        ("-" ∈ positionals arguments → positionals arguments = ["-"])) := by
  constructor
  · constructor
    · rintro ⟨a, h⟩
      have htakeable := ((parse_eq_ok_iff arguments a).mp h).1
      exact ⟨htakeable.faultless, htakeable.parted⟩
    · rintro ⟨hfaultless, hparted⟩
      exact ⟨_, (parse_eq_ok_iff arguments _).mpr ⟨⟨hfaultless, hparted⟩, rfl⟩⟩
  · intro a h
    obtain ⟨htakeable, rfl⟩ := (parse_eq_ok_iff arguments a).mp h
    refine ⟨rfl, ?_⟩
    constructor
    · rintro ⟨hlength, -⟩ hdash
      exact eq_singleton_of_mem hlength hdash
    · intro hdash
      have hlength : (positionals arguments).length ≤ 1 := by
        by_cases hmem : "-" ∈ positionals arguments
        · rw [hdash hmem]
          simp
        · exact length_le_of_parted htakeable.parted hmem
      exact ⟨hlength, congrArg (Option.filter _) (getLast?_eq_head? hlength)⟩

/-- A dash behind `-o` is a file; the other one takes back the first pattern. -/
theorem parse_keeps_pattern_iff_of_operand :
    parse ["a", "-o", "-", "-", "--json", "b"] =
        .ok { pattern := some "b", output := some "-", json := true } ∧
      positionals ["a", "-o", "-", "-", "--json", "b"] = ["a", "-", "b"] ∧
      some "b" = (positionals ["a", "-o", "-", "-", "--json", "b"]).getLast?.filter (· ≠ "-") ∧
      ¬ ∃ a, parse ["a", "-o", "-", "b"] = .ok a := by
  refine ⟨rfl, rfl, ?_, ?_⟩
  · exact ((parse_keeps_pattern_iff ["a", "-o", "-", "-", "--json", "b"]).2
      { pattern := some "b", output := some "-", json := true } rfl).1
  · intro h
    have hparted := ((parse_keeps_pattern_iff ["a", "-o", "-", "b"]).1.mp h).2
    exact absurd hparted (by decide)

/-- **A dash takes back the pattern in front of it**: nothing is wrong with a pattern and a dash
    behind it, and the pattern is read from the input. -/
theorem dash_drops_pattern :
    parse ["a", "-"] = .ok {} ∧ positionals ["a", "-"] = ["a", "-"] ∧
      ¬ ∀ arguments a, parse arguments = .ok a → (positionals arguments).length ≤ 1 ∧
        a.pattern = (positionals arguments).head?.filter (· ≠ "-") := by
  refine ⟨rfl, rfl, ?_⟩
  intro h
  exact absurd (h ["a", "-"] {} rfl).1 (by decide)

end PatternDiagram.Arguments
