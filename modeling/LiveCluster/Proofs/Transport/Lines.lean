import LiveCluster.Proofs.Text.Decoding
import LiveCluster.Proofs.Text.Trimming
import LiveCluster.Proofs.Transport.Boundary

/-!
# The lines of a log

Each chunk of a log is one line, and reading it cannot fail: bytes that are no text are
read as replacement characters. What is taken off a line is the run of line breaks at its
end. It is taken off after the reading, so no byte of a character is mistaken for one.
-/

namespace LiveCluster.Transport

open Generator (Exit Runs Stopped)

/-! ## Streams that are read to their end -/

namespace Generator

variable {μ α β : Type}

theorem run_ensuring (take : Option Nat) (last : μ) (g : Generator μ α) :
    (g.ensuring last).run take = ((g.run take).1 ++ [last], (g.run take).2) := by
  induction g generalizing take with
  | returned | raised fault => rfl
  | marked mark rest ih =>
      rw [ensuring, run, ih, run]
      rfl
  | waiting rest left ih => rw [ensuring, run, ih, run]
  | yielded item rest left ih =>
      cases take with
      | none =>
          rw [ensuring, run, ih, run]
      | some n =>
          rw [ensuring, run, ih, run]
          split <;> rfl

theorem run_translating (take : Option Nat) (f : Fault → Fault) (g : Generator μ α) :
    (g.translating f).run take = ((g.run take).1, (g.run take).2.1, (g.run take).2.2.map f) := by
  induction g generalizing take with
  | returned | raised fault => rfl
  | marked mark rest ih => rw [translating, run, ih, run]
  | waiting rest left ih => rw [translating, run, ih, run]
  | yielded item rest left ih =>
      cases take with
      | none => rw [translating, run, ih, run]
      | some n =>
          rw [translating, run, ih, run]
          split <;> rfl

/-- A stream all of whose items can be read is handed out as a whole. -/
theorem run_each (read : α → β) (failure : Option Fault) (stream : List α) :
    (each (fun item => .ok (read item)) failure stream : Generator μ β).run none =
      ([], stream.map read, failure) := by
  induction stream with
  | nil => cases failure <;> rfl
  | cons item rest ih => rw [each, run, run, ih, List.map_cons]

end Generator

/-! ## Lines -/

/-- Whether a character is part of a line break. -/
def breaksLine (c : Char) : Bool :=
  c == '\r' || c == '\n'

theorem breaksLine_iff {c : Char} : breaksLine c = true ↔ c = '\r' ∨ c = '\n' := by
  simp [breaksLine]

theorem toList_lineOf (chunk : List UInt8) :
    (lineOf chunk).toList = (Text.decode chunk).rdropWhile breaksLine :=
  String.toList_ofList

theorem getLast?_lineOf {chunk : List UInt8} {c : Char}
    (h : (lineOf chunk).toList.getLast? = some c) : c ≠ '\r' ∧ c ≠ '\n' := by
  rw [toList_lineOf] at h
  obtain ⟨hne, rfl⟩ := List.mem_getLast?_eq_getLast h
  have hlast := List.rdropWhile_last_not breaksLine (Text.decode chunk) hne
  rwa [breaksLine_iff, not_or] at hlast

/-- The line of a text is the text without the line breaks at its end. -/
theorem lineOf_toUTF8 (t : String) :
    ∃ breaks : String, t = lineOf t.toUTF8.data.toList ++ breaks ∧
      ∀ c ∈ breaks.toList, c = '\r' ∨ c = '\n' := by
  refine ⟨String.ofList (t.toList.rtakeWhile breaksLine), ?_, ?_⟩
  · rw [← String.toList_inj, String.toList_append, toList_lineOf, Text.decode_toUTF8,
      String.toList_ofList, List.rdropWhile_append_rtakeWhile]
  · intro c hc
    rw [String.toList_ofList] at hc
    exact breaksLine_iff.1 (List.mem_rtakeWhile_imp hc)

/-- What a consumer that takes everything is handed, and the failure that it meets. -/
theorem streamLogs_all (ns pod container : String) (options : TailOptions)
    (chunks : List (List UInt8)) (failure : Option Fault) :
    (streamLogs ns pod container options none (.items chunks failure)).2 =
      (chunks.map lineOf,
        failure.map (transportFault ("logs " ++ ns ++ "/" ++ pod ++ ":" ++ container))) := by
  rw [streamLogs, following, Generator.run, Generator.run, Generator.run_ensuring,
    Generator.run_translating, Generator.run_each]

/-- However the reading of a log ends, what was handed out are the first lines of it, and a failure
is the stream's own. -/
theorem lines_of_runs {ns pod container : String} {options : TailOptions}
    {chunks : List (List UInt8)} {failure : Option Fault} {marks : List Mark}
    {lines : List String} {ending : Exit}
    (h : Runs (following ns pod container options (.items chunks failure)) marks lines ending) :
    lines <+: chunks.map lineOf ∧
      ∀ fault, ending = .raised fault → ∃ cause, failure = some cause ∧ Surfaces cause fault := by
  cases logRun_of_runs ns pod container options h with
  | unopened => exact ⟨List.nil_prefix, fun _ hraised => by cases hraised⟩
  | refused hfeed _ => cases hfeed
  | stopped hfeed hfront hstopped =>
      cases hfeed
      refine ⟨hfront, ?_⟩
      rintro fault rfl
      cases hstopped
  | ended hfeed hends =>
      cases hfeed
      refine ⟨List.prefix_refl _, ?_⟩
      rintro fault rfl
      cases failure with
      | none => cases hends
      | some cause =>
          obtain ⟨surfaced, hraised, hsurfaces⟩ := hends
          cases hraised
          exact ⟨cause, rfl, hsurfaces⟩

/-- A consumer that takes everything is handed one line for each chunk, in order, and meets a
failure only if the stream has one; one that stops before is handed the first of these lines. No
line ends in a line break, and the line of a text is the text without the line breaks at its end. -/
theorem log_text_survives (ns pod container : String) (options : TailOptions)
    (chunks : List (List UInt8)) (failure : Option Fault) :
    (streamLogs ns pod container options none (.items chunks failure)).2.1 =
        chunks.map lineOf ∧
      ((streamLogs ns pod container options none (.items chunks failure)).2.2 = none ↔
        failure = none) ∧
      (∀ marks lines ending,
        Runs (following ns pod container options (.items chunks failure)) marks lines ending →
        lines <+: chunks.map lineOf ∧
          ∀ fault, ending = .raised fault →
            ∃ cause, failure = some cause ∧ Surfaces cause fault) ∧
      ∀ chunk,
        (∀ c, (lineOf chunk).toList.getLast? = some c → c ≠ '\r' ∧ c ≠ '\n') ∧
        ∀ t : String, chunk = t.toUTF8.data.toList →
          ∃ breaks : String, t = lineOf chunk ++ breaks ∧
            ∀ c ∈ breaks.toList, c = '\r' ∨ c = '\n' := by
  have hall := streamLogs_all ns pod container options chunks failure
  refine ⟨congrArg Prod.fst hall, ?_, ?_, ?_⟩
  · rw [hall, Option.map_eq_none_iff]
  · intro marks lines ending h
    exact lines_of_runs h
  · intro chunk
    refine ⟨fun c hlast => getLast?_lineOf hlast, ?_⟩
    rintro t rfl
    exact lineOf_toUTF8 t

/-- A line that ends in a line break and has another within it, and bytes that are no text. -/
example : [lineOf [0xE2, 0x82, 0xAC, 0x0D, 0x0A, 0x78, 0x0A, 0x0D], lineOf [0xE2, 0x82, 0x0A]] =
    ["€\r\nx", "\uFFFD"] := by
  decide

end LiveCluster.Transport
