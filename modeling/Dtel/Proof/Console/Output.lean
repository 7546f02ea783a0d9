import Dtel.Construction.Console.Output
import Dtel.Library.Calls
import Mathlib.Data.List.TakeWhile

namespace Dtel.Console
open Calls

variable {State Error Arg : Type} {toString : Arg → EStateM Error State String} {args : List Arg}
  {before after : State} {texts : List String} {message ss : String}

/-- The loop writes one text after the others. -/
def write (ss text : String) : String := (if ss = "" then ss else ss ++ " ") ++ text

def NulFree (text : String) : Prop := Char.ofNat 0 ∉ text.toList

/-- The stream reads a C string, which ends at a NUL. -/
theorem cString_free {text : String} (free : NulFree text) : Duktape.cString text = text := by
  have whole : text.toList.takeWhile (fun char => char ≠ Char.ofNat 0) = text.toList := by
    apply List.takeWhile_eq_self_iff.mpr
    intro char member
    have other : char ≠ Char.ofNat 0 := fun same => free (same ▸ member)
    simpa using other
  rw [Duktape.cString, whole, String.ofList_toList]

/-- The loop folds the texts of its arguments. -/
theorem buildMessage_run (succeeds : args.mapM toString before = .ok texts after) (free : ∀ text ∈ texts, NulFree text) :
    buildMessage toString ss args before = .ok (texts.foldl write ss) after := by
  induction args generalizing before texts ss with
  | nil =>
      cases succeeds
      rfl
  | cons arg args inductionHypothesis =>
      rw [List.mapM_cons] at succeeds
      obtain ⟨text, middle, converted, succeeds⟩ := bind_returned succeeds
      obtain ⟨rest, last, others, returned⟩ := bind_returned succeeds
      cases returned
      have first : Duktape.cString text = text := cString_free (free text List.mem_cons_self)
      have later : ∀ other ∈ rest, NulFree other := fun other member => free other (List.mem_cons_of_mem _ member)
      rw [buildMessage, bind_ok converted, first, inductionHypothesis others later]
      rfl

/-- Behind some text, each further text gets its space. -/
theorem foldl_write (started : ss ≠ "") : texts.foldl write ss = " ".intercalate (ss :: texts) := by
  induction texts generalizing ss with
  | nil => simp
  | cons text texts inductionHypothesis =>
      have wrote : write ss text = ss ++ " " ++ text := by simp [write, started]
      have longer : ss ++ " " ++ text ≠ "" := by simp [started]
      rw [List.foldl_cons, wrote, inductionHypothesis longer, String.intercalate_cons_cons]
      simp [String.append_assoc]

/-- The message joins the texts from the first one that is not empty. -/
theorem foldl_write_empty : texts.foldl write "" = " ".intercalate (texts.dropWhile fun text => text = "") := by
  induction texts with
  | nil => simp
  | cons text texts inductionHypothesis =>
      have wrote : write "" text = text := by simp [write]
      rw [List.foldl_cons, wrote]
      by_cases empty : text = ""
      · rw [List.dropWhile_cons_of_pos (by simpa using empty), ← inductionHypothesis, empty]
      · rw [List.dropWhile_cons_of_neg (by simpa using empty), foldl_write empty]

/-- Texts at the front that are dropped make the joined texts no longer. -/
theorem intercalate_dropWhile_length (texts : List String) : (" ".intercalate (texts.dropWhile fun text => text = "")).length ≤
    (" ".intercalate texts).length := by
  induction texts with
  | nil => simp
  | cons text texts inductionHypothesis =>
      by_cases empty : text = ""
      · rw [List.dropWhile_cons_of_pos (by simpa using empty)]
        cases texts with
        | nil => simp
        | cons next texts =>
            rw [String.intercalate_cons_cons, String.length_append]
            omega
      · rw [List.dropWhile_cons_of_neg (by simpa using empty)]

/-- The message has all its spaces exactly when no space comes behind an empty text alone. -/
theorem foldl_write_eq_intercalate :
    texts.foldl write "" = " ".intercalate texts ↔ texts.length ≤ 1 ∨ texts.head? ≠ some "" := by
  rw [foldl_write_empty]
  cases texts with
  | nil => simp
  | cons text texts =>
      by_cases empty : text = ""
      · rw [List.dropWhile_cons_of_pos (by simpa using empty)]
        cases texts with
        | nil => simp [empty]
        | cons next texts =>
            have shorter := intercalate_dropWhile_length (next :: texts)
            constructor
            · intro same
              rw [same, String.intercalate_cons_cons, String.length_append, String.length_append] at shorter
              have space : " ".length = 1 := rfl
              omega
            · simp [empty]
      · rw [List.dropWhile_cons_of_neg (by simpa using empty)]
        simp [empty]

/-- Each method gives the whole message to the worker, under its own type. -/
theorem call_run (method : Method) (worker : ConsoleWorker State)
    (built : buildMessage toString "" args before = .ok message after) :
    method.call toString ⟨some worker⟩ args before = .ok () (worker.output method.outputtype message after) := by
  cases method with
  | log | debug | error | info | warn => exact bind_ok built

/-- The worker gets the arguments with one space between each two of them exactly when there is at most
one argument, or the first one is not empty. -/
theorem message_joins_arguments_iff (method : Method) (succeeds : args.mapM toString before = .ok texts after)
    (free : ∀ text ∈ texts, NulFree text) :
    ∃ message, buildMessage toString "" args before = .ok message after ∧
      (∀ worker : ConsoleWorker State,
        method.call toString ⟨some worker⟩ args before = .ok () (worker.output method.outputtype message after)) ∧
      (message = " ".intercalate texts ↔ texts.length ≤ 1 ∨ texts.head? ≠ some "") := by
  have built : buildMessage toString "" args before = .ok (texts.foldl write "") after :=
    buildMessage_run succeeds free
  exact ⟨texts.foldl write "", built, fun worker => call_run method worker built, foldl_write_eq_intercalate⟩

/-- This worker keeps the messages that it gets. -/
def recorder : ConsoleWorker (List (String × String)) where
  clear _ := []
  output outputtype message log := log ++ [(outputtype, message)]

/-- A string is its own text. -/
def verbatim (text : String) : EStateM Unit (List (String × String)) String := return text

theorem message_joins_arguments_iff_here :
    Method.warn.call verbatim ⟨some recorder⟩ ["a", "", "b"] [] = .ok () [("warn", "a  b")] := by
  have succeeds : ["a", "", "b"].mapM verbatim [] = .ok ["a", "", "b"] [] := rfl
  have free : ∀ text ∈ ["a", "", "b"], NulFree text := by simp [NulFree]
  obtain ⟨message, -, calls, joined⟩ := message_joins_arguments_iff .warn succeeds free
  rw [calls recorder, joined.mpr (Or.inr (by simp))]
  rfl

/-- `console.log("", "a")` gives its second argument alone to the worker. -/
theorem empty_first_argument_loses_space :
    ["", "a"].mapM verbatim [] = .ok ["", "a"] [] ∧ (∀ text ∈ ["", "a"], NulFree text) ∧
      log verbatim ⟨some recorder⟩ ["", "a"] [] = .ok () [("log", "a")] ∧ "a" ≠ " ".intercalate ["", "a"] := by
  exact ⟨rfl, by simp [NulFree], rfl, by decide⟩

end Dtel.Console
