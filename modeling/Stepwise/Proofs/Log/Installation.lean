import Stepwise.Proofs.Log.Requests
import Mathlib.Data.List.Induction

/-!
# The logger of a session

In a sequence of calls the first effective one installs the logger of the session, with a greeting that is
never repeated. All other calls leave the logger and the terminal as they are, and every answer tells why.
Between two calls others may do with the folder what they like.
-/

namespace Stepwise.Log

/-- A request, and what others have done to the folder since the request before it. -/
structure Call where
  meanwhile : Folder → Folder
  request : Request

/-- A request before which nobody touches the folder. -/
def Call.undisturbed (request : Request) : Call where
  meanwhile := id
  request := request

namespace Session

/-- The session that a call meets. -/
def meets (session : Session) (call : Call) : Session :=
  { session with folder := call.meanwhile session.folder }

/-- The answer to a call, and the session after it. -/
def reply (session : Session) (call : Call) : Except LoggerError Unit × Session :=
  (session.meets call).request call.request

/-- The session after some calls. -/
def after (session : Session) (calls : List Call) : Session :=
  calls.foldl (fun session call => (session.reply call).2) session

/-- One of some calls is effective in the session that it meets. -/
def Served (session : Session) (calls : List Call) : Prop :=
  ∃ k call, calls[k]? = some call ∧
    ((session.after (calls.take k)).meets call).Effective call.request

/-- On the terminal there is the greeting of the logger, and nothing else. -/
def Greeted (session : Session) : Prop :=
  session.terminal = (session.logger.map Logger.greeting).getD []

variable {session : Session} {request : Request} {calls : List Call} {call : Call}

section Run

/-- One more call is answered by the session after the others. -/
lemma after_concat : session.after (calls ++ [call]) = ((session.after calls).reply call).2 := by
  rw [after, List.foldl_append]
  rfl

/-- Some calls and a last one: one of them is effective, or the last one is. -/
lemma served_concat_iff :
    session.Served (calls ++ [call]) ↔
      session.Served calls ∨ ((session.after calls).meets call).Effective call.request := by
  constructor
  · rintro ⟨k, other, found, effective⟩
    rcases Nat.lt_or_ge k calls.length with before | last
    · rw [List.getElem?_append_left before] at found
      rw [List.take_append_of_le_length (Nat.le_of_lt before)] at effective
      exact .inl ⟨k, other, found, effective⟩
    · have bound : k < (calls ++ [call]).length := (List.getElem?_eq_some_iff.mp found).1
      rw [List.length_append, List.length_singleton] at bound
      obtain rfl : k = calls.length := by omega
      rw [List.getElem?_concat_length] at found
      rw [List.take_left] at effective
      cases found
      exact .inr effective
  · rintro (⟨k, other, found, effective⟩ | effective)
    · have before : k < calls.length := (List.getElem?_eq_some_iff.mp found).1
      refine ⟨k, other, (List.getElem?_append_left before).trans found, ?_⟩
      rw [List.take_append_of_le_length (Nat.le_of_lt before)]
      exact effective
    · refine ⟨calls.length, call, List.getElem?_concat_length, ?_⟩
      rw [List.take_left]
      exact effective

/-- Requests that nobody disturbs are calls like others. -/
theorem requests_undisturbed (session : Session) (requests : List Request) :
    (session.requests requests).2 = session.after (requests.map .undisturbed) ∧
      ∀ k request, requests[k]? = some request →
        (session.requests requests).1[k]? =
          some ((session.after ((requests.take k).map .undisturbed)).request request).1 := by
  induction requests generalizing session with
  | nil => exact ⟨rfl, fun _ _ found => nomatch found⟩
  | cons first rest ih =>
    obtain ⟨last, answers⟩ := ih (session.request first).2
    refine ⟨last, fun k request found => ?_⟩
    cases k with
    | zero =>
      cases found
      rfl
    | succ k => exact answers k request found

end Run

section Step

/-- After a request there is a logger if there was one before, or the request is effective. -/
lemma isSome_logger_request_iff :
    (session.request request).2.logger.isSome = true ↔
      session.logger.isSome = true ∨ session.Effective request := by
  have answered := session.request_answered request
  generalize session.request request = reply at answered ⊢
  cases answered with
  | declined declines => exact (or_iff_left (not_effective_of_declines declines)).symm
  | unknown unknown => exact (or_iff_left (not_effective_of_unknown unknown)).symm
  | unmade _ ineffective => exact (or_iff_left ineffective).symm
  | refused effective taken => exact iff_of_true ((congrArg _ opened_logger).trans taken) (.inl taken)
  | installed effective free logger =>
    exact iff_of_true (Option.isSome_of_eq_some logger) (.inr effective)

/-- Only a request that installs a logger writes a greeting. -/
lemma Greeted.kept (greeted : session.Greeted) (request : Request) :
    (session.request request).2.Greeted := by
  have answered := session.request_answered request
  generalize session.request request = reply at answered ⊢
  cases answered with
  | refused =>
    rw [Greeted, opened_terminal, opened_logger]
    exact greeted
  | installed _ free logger terminal =>
    rw [Greeted, terminal, logger, greeted, free]
    rfl
  | _ => exact greeted

/-- A request that is not effective, or comes too late, writes nothing. -/
lemma request_idle (idle : ¬ session.Effective request ∨ session.logger.isSome = true) :
    let after := (session.request request).2
    after.logger = session.logger ∧ after.terminal = session.terminal ∧
      ∀ name, after.folder.text? name = session.folder.text? name ∨
        after.folder.text? name = some "" := by
  have answered := session.request_answered request
  generalize session.request request = reply at answered ⊢
  cases answered with
  | refused effective =>
    refine ⟨opened_logger, opened_terminal, fun name => ?_⟩
    rw [opened_text? effective]
    split
    case isTrue => exact .inr rfl
    case isFalse => exact .inl rfl
  | installed effective free =>
    rcases idle with ineffective | taken
    · exact absurd effective ineffective
    · rw [free] at taken
      cases taken
  | _ => exact ⟨rfl, rfl, fun name => .inl rfl⟩

end Step

/-- After some calls there is a logger exactly if one of them was effective, and its greeting is all that
there is on the terminal. -/
lemma after_start (folder : Folder) (calls : List Call) :
    let last := (start folder).after calls
    (last.logger.isSome = true ↔ (start folder).Served calls) ∧ last.Greeted := by
  -- from the end: the last call meets the session that the calls before it leave
  induction calls using List.reverseRecOn with
  | nil => exact ⟨⟨nofun, fun ⟨_, _, found, _⟩ => nomatch found⟩, rfl⟩
  | append_singleton calls call ih =>
    obtain ⟨logger, greeted⟩ := ih
    have met : (((start folder).after calls).meets call).Greeted := greeted
    rw [after_concat]
    refine ⟨?_, met.kept call.request⟩
    rw [served_concat_iff, ← logger]
    exact isSome_logger_request_iff

/-- How a session answers a request and what becomes of it, if `served` says whether a request before it
was effective. -/
structure Handled (served : Prop) (before : Session) (request : Request)
    (reply : Except LoggerError Unit × Session) : Prop where
  /-- The first effective request gets the logger that it wants, and the file has its greeting. -/
  installed : ∀ level, request.Asks level → before.Effective request → ¬ served →
    reply.1 = .ok () ∧ reply.2.logger = some (request.logger level) ∧
      ∀ name, request.file? = some name →
        reply.2.folder.text? name = some (lines (request.logger level).greeting)
  refused : before.Effective request → served → reply.1 = .error .alreadyInstalled
  unknown : ∀ text, request.Unknown text → reply.1 = .error (.unknownLevel text)
  unmade : ∀ level, request.Asks level → ¬ before.Effective request →
    reply.1 = .error (.file .noFolder)
  declined : request.Declines → reply.1 = .ok ()
  /-- Other requests install nothing and write nothing. -/
  idle : ¬ before.Effective request ∨ served →
    reply.2.logger = before.logger ∧ reply.2.terminal = before.terminal ∧
      ∀ name, reply.2.folder.text? name = before.folder.text? name ∨
        reply.2.folder.text? name = some ""

/-- In every sequence of calls from the start of a session, the first effective call installs the logger
that it asks for, and the later ones are told that there is one. The other calls fail because of their
word or their file, or decline, and change nothing. There is a logger exactly if a call was effective, and
the terminal has its greeting once and nothing else. -/
theorem calls_handled (folder : Folder) (earlier : List Call) (call : Call) :
    let before := ((start folder).after earlier).meets call
    let reply := before.request call.request
    Handled ((start folder).Served earlier) before call.request reply ∧
      (start folder).after (earlier ++ [call]) = reply.2 ∧
      (reply.2.logger.isSome = true ↔ (start folder).Served (earlier ++ [call])) ∧
      reply.2.terminal = (reply.2.logger.map Logger.greeting).getD [] := by
  intro before reply
  have served : before.logger.isSome = true ↔ (start folder).Served earlier :=
    (after_start folder earlier).1
  obtain ⟨logger, greeted⟩ := after_start folder (earlier ++ [call])
  rw [after_concat] at logger greeted
  refine ⟨?handled, after_concat, logger, greeted⟩
  case handled =>
    refine
      { installed := fun level asks effective unserved => ?_
        refused := fun effective h => congrArg Prod.fst (request_of_taken effective (served.mpr h))
        unknown := fun text unknown => congrArg Prod.fst (request_of_unknown unknown)
        unmade := fun level asks ineffective =>
          congrArg Prod.fst (request_of_ineffective asks ineffective)
        declined := fun declines => congrArg Prod.fst (request_of_declines declines)
        idle := fun idle => request_idle (idle.imp_right served.mpr) }
    have free : before.logger = none :=
      Option.not_isSome_iff_eq_none.mp fun taken => unserved (served.mp taken)
    obtain ⟨answer, logger, -, files⟩ := request_of_free asks effective free
    exact ⟨answer, logger, fun name wanted => (files name).trans (if_pos wanted)⟩

example :
    ((start .empty).requests
      [{ plain with level := some "off" }, { plain with level := some "loud" }, plain, verbose]).1 =
      [.ok (), .error (.unknownLevel "loud"), .ok (), .error .alreadyInstalled] := by
  decide +kernel

end Session

end Stepwise.Log
