import Stepwise.Log.Session
import Stepwise.Proofs.Folder

/-!
# Requests for a logger

A request asks for a level, or declines, or its word is unknown. It is effective if it asks for a level and
its log file can be made, should it want one. An effective request installs a logger if there is none yet.
Other requests make no difference, but one that is refused because of a logger leaves its log file behind.
-/

namespace Stepwise.Log

/-- The word that asks for a level. -/
def Level.word : Level → String
  | error => "error"
  | warn => "warn"
  | info => "info"
  | debug => "debug"

/-- The message with which a logger of a level begins. -/
def started (level : Level) : Message where
  level := .info
  text := "Program started with loglevel: " ++ level.name

/-- What a logger writes when it is installed: its first message, if its level lets it pass. -/
def Logger.greeting (logger : Logger) : List Message :=
  if logger.level = .info ∨ logger.level = .debug then [started logger.level] else []

/-- A logger greets exactly if its level lets information pass. -/
lemma Logger.greeting_eq (logger : Logger) :
    logger.greeting =
      if Level.info.rank ≤ logger.level.rank then [started logger.level] else [] := by
  unfold greeting
  cases logger.level <;> rfl

/-- Messages as the text of a file. -/
def lines (messages : List Message) : String :=
  String.join (messages.map fun message => Session.line message ++ "\n")

namespace Request

/-- A request asks for a level by its word, and for `info` without a word. -/
def Asks (request : Request) (level : Level) : Prop :=
  request.level = some level.word ∨ (request.level = none ∧ level = .info)

/-- A request can say that it wants no logger. -/
def Declines (request : Request) : Prop :=
  request.level = some "off" ∨ request.level = some "none"

/-- The word of a request is not known. -/
def Unknown (request : Request) (text : String) : Prop :=
  request.level = some text ∧ (∀ level : Level, text ≠ level.word) ∧ text ≠ "off" ∧ text ≠ "none"

/-- The file that a request wants. -/
def file? (request : Request) : Option String :=
  if request.toFile then some request.fileName else none

/-- The logger that a request wants. -/
def logger (request : Request) (level : Level) : Logger where
  level := level
  file := request.file?

variable {request : Request} {level : Level} {text : String}

/-- A request asks for a level, or declines, or its word is not known. -/
lemma asks_or_declines_or_unknown (request : Request) :
    (∃ level, request.Asks level) ∨ request.Declines ∨ ∃ text, request.Unknown text := by
  cases word : request.level with
  | none => exact .inl ⟨.info, .inr ⟨word, rfl⟩⟩
  | some text =>
    by_cases known : ∃ level : Level, text = level.word
    · obtain ⟨level, rfl⟩ := known
      exact .inl ⟨level, .inl word⟩
    · by_cases off : text = "off" ∨ text = "none"
      · refine .inr (.inl ?_)
        rcases off with rfl | rfl
        · exact .inl word
        · exact .inr word
      · rw [not_or] at off
        exact .inr (.inr ⟨text, word, fun level e => known ⟨level, e⟩, off⟩)

/-- The word for a level is read as that level. -/
lemma verbosity_of_asks (asks : request.Asks level) :
    Verbosity.ofText (request.level.getD "info") = .ok (some level) := by
  rcases asks with word | ⟨word, rfl⟩
  · rw [word]
    cases level <;> rfl
  · rw [word]
    rfl

/-- The word for no logger is read as none. -/
lemma verbosity_of_declines (declines : request.Declines) :
    Verbosity.ofText (request.level.getD "info") = .ok none := by
  rcases declines with word | word
  · rw [word]
    rfl
  · rw [word]
    rfl

/-- A word that is not known is reported as it is. -/
lemma verbosity_of_unknown (unknown : request.Unknown text) :
    Verbosity.ofText (request.level.getD "info") = .error (.unknownLevel text) := by
  obtain ⟨word, levels, other⟩ := unknown
  have debug : text ≠ "debug" := levels .debug
  have info : text ≠ "info" := levels .info
  have warn : text ≠ "warn" := levels .warn
  have error : text ≠ "error" := levels .error
  rw [word, Option.getD_some, Verbosity.ofText, if_neg debug, if_neg info, if_neg warn, if_neg error,
    if_neg (not_or.mpr other)]

end Request

namespace Session

variable {session : Session} {request : Request} {level : Level} {logger : Logger}

/-- A request is effective if it asks for a level, and the file that it wants can be made. -/
def Effective (session : Session) (request : Request) : Prop :=
  (∃ level, request.Asks level) ∧ (request.toFile = true → session.folder.present = true)

/-- The session with the file that a request wants. -/
def opened (session : Session) (request : Request) : Session :=
  match request.file? with
  | some name => { session with folder := (session.folder.put name "").toOption.getD session.folder }
  | none => session

/-- A request that declines is not effective. -/
lemma not_effective_of_declines (declines : request.Declines) : ¬ session.Effective request :=
  fun ⟨⟨_, asks⟩, _⟩ =>
    nomatch (Request.verbosity_of_declines declines).symm.trans (Request.verbosity_of_asks asks)

/-- A request with an unknown word is not effective. -/
lemma not_effective_of_unknown {text : String} (unknown : request.Unknown text) :
    ¬ session.Effective request :=
  fun ⟨⟨_, asks⟩, _⟩ =>
    nomatch (Request.verbosity_of_unknown unknown).symm.trans (Request.verbosity_of_asks asks)

/-- A request that declines is granted, and nothing changes. -/
lemma request_of_declines (declines : request.Declines) :
    session.request request = (.ok (), session) := by
  rw [Session.request, Request.verbosity_of_declines declines]

/-- A request with an unknown word is refused, and nothing changes. -/
lemma request_of_unknown {text : String} (unknown : request.Unknown text) :
    session.request request = (.error (.unknownLevel text), session) := by
  rw [Session.request, Request.verbosity_of_unknown unknown]

/-- A request whose file cannot be made is refused, and nothing changes. -/
lemma request_of_ineffective (asks : request.Asks level) (ineffective : ¬ session.Effective request) :
    session.request request = (.error (.file .noFolder), session) := by
  obtain ⟨wants, absent⟩ := Classical.not_imp.mp (not_and.mp ineffective ⟨level, asks⟩)
  have missing : session.folder.present = false := Bool.eq_false_iff.mpr absent
  rw [Session.request, Request.verbosity_of_asks asks]
  simp only [wants, if_true, Folder.put_of_missing missing]

/-- An effective request finds its log file made, if it wants one. -/
lemma Effective.put (effective : session.Effective request) (wants : request.toFile = true) :
    ∃ made, session.folder.put request.fileName "" = .ok made ∧
      session.opened request = { session with folder := made } := by
  obtain ⟨made, e⟩ := Folder.exists_put_iff.mpr (effective.2 wants)
  refine ⟨made, e, ?_⟩
  rw [opened, Request.file?, if_pos wants]
  dsimp only
  rw [e]
  rfl

/-- A request without a file opens nothing. -/
lemma opened_of_fileless (fileless : request.toFile = false) : session.opened request = session := by
  rw [opened, Request.file?, fileless]
  rfl

/-- An effective request opens its file and then installs its logger. -/
lemma request_of_effective (asks : request.Asks level) (effective : session.Effective request) :
    session.request request = (session.opened request).install level request.file? := by
  rw [Session.request, Request.verbosity_of_asks asks, Request.file?]
  cases wants : request.toFile with
  | true =>
    obtain ⟨made, e, opened⟩ := effective.put wants
    simp only [e, opened, if_true]
  | false =>
    rw [opened_of_fileless wants]
    rfl

section Opened

/-- Opening a file installs no logger. -/
lemma opened_logger : (session.opened request).logger = session.logger := by
  unfold opened
  split <;> rfl

/-- Opening a file writes nothing to the terminal. -/
lemma opened_terminal : (session.opened request).terminal = session.terminal := by
  unfold opened
  split <;> rfl

/-- Opening a log file makes it empty, and leaves the other files as they are. -/
lemma opened_text? (effective : session.Effective request) (name : String) :
    (session.opened request).folder.text? name =
      if request.file? = some name then some "" else session.folder.text? name := by
  rw [Request.file?]
  cases wants : request.toFile with
  | true =>
    obtain ⟨made, e, opened⟩ := effective.put wants
    simp only [opened, Folder.text?_put e, if_true, Option.some.injEq, eq_comm]
  | false =>
    rw [opened_of_fileless wants]
    rfl

end Opened

section Install

/-- A second logger is refused, and nothing changes by that. -/
lemma install_of_taken {file : Option String} (taken : session.logger.isSome = true) :
    session.install level file = (.error .alreadyInstalled, session) := by
  rw [install, if_pos taken]

/-- A logger writes a message to the terminal and to its file, if its level lets the message pass. -/
lemma write_spec (e : session.logger = some logger) (message : Message) :
    let written := if message.level.rank ≤ logger.level.rank then [message] else []
    (session.write message).logger = some logger ∧
      (session.write message).terminal = session.terminal ++ written ∧
      ∀ name, (session.write message).folder.text? name =
        if logger.file = some name then (session.folder.text? name).map (· ++ lines written)
        else session.folder.text? name := by
  unfold write
  rw [e]
  dsimp only
  split
  case isTrue =>
    refine ⟨rfl, rfl, fun name => ?_⟩
    cases logger.file with
    | none => rfl
    | some file =>
      have line_eq : lines [message] = line message ++ "\n" := String.empty_append
      simp only [Folder.text?_append, Option.some.injEq, line_eq, eq_comm]
  case isFalse =>
    have empty : lines [] = "" := rfl
    refine ⟨e, (List.append_nil _).symm, fun name => ?_⟩
    simp only [empty, String.append_empty, Option.map_id', ite_self]

/-- Where there is no logger yet, one is installed and writes its greeting. -/
lemma install_of_free {file : Option String} (free : session.logger = none) :
    let installed := (session.install level file).2
    let greeting := Logger.greeting { level, file }
    (session.install level file).1 = .ok () ∧ installed.logger = some { level, file } ∧
      installed.terminal = session.terminal ++ greeting ∧
      ∀ name, installed.folder.text? name =
        if file = some name then (session.folder.text? name).map (· ++ lines greeting)
        else session.folder.text? name := by
  have e : session.install level file =
      (.ok (), { session with logger := some { level, file } }.write (started level)) := by
    rw [install, free]
    rfl
  rw [e, Logger.greeting_eq]
  exact ⟨rfl, write_spec rfl (started level)⟩

end Install

/-- An effective request is refused where there is a logger already, but its file has been opened by then.
-/
lemma request_of_taken (effective : session.Effective request)
    (taken : session.logger.isSome = true) :
    session.request request = (.error .alreadyInstalled, session.opened request) := by
  obtain ⟨level, asks⟩ := effective.1
  rw [← opened_logger] at taken
  rw [request_of_effective asks effective, install_of_taken taken]

/-- The first effective request installs the logger that it wants, with a greeting. -/
lemma request_of_free (asks : request.Asks level) (effective : session.Effective request)
    (free : session.logger = none) :
    let installed := (session.request request).2
    let greeting := (request.logger level).greeting
    (session.request request).1 = .ok () ∧ installed.logger = some (request.logger level) ∧
      installed.terminal = session.terminal ++ greeting ∧
      ∀ name, installed.folder.text? name =
        if request.file? = some name then some (lines greeting) else session.folder.text? name := by
  have spec := @install_of_free (session.opened request) level request.file?
    (opened_logger.trans free)
  rw [request_of_effective asks effective]
  obtain ⟨answer, logger, terminal, files⟩ := spec
  refine ⟨answer, logger, terminal.trans (congrArg (· ++ _) opened_terminal), fun name => ?_⟩
  rw [files, opened_text? effective]
  split
  case isTrue => exact congrArg some String.empty_append
  case isFalse => rfl

/-- What a request does to a session: it makes a difference only if it is effective. -/
inductive Answered (session : Session) (request : Request) :
    Except LoggerError Unit × Session → Prop where
  | declined (declines : request.Declines) : Answered session request (.ok (), session)
  | unknown {text : String} (unknown : request.Unknown text) :
      Answered session request (.error (.unknownLevel text), session)
  | unmade {level : Level} (asks : request.Asks level) (ineffective : ¬ session.Effective request) :
      Answered session request (.error (.file .noFolder), session)
  | refused (effective : session.Effective request) (taken : session.logger.isSome = true) :
      Answered session request (.error .alreadyInstalled, session.opened request)
  | installed {level : Level} {next : Session} (effective : session.Effective request)
      (free : session.logger = none) (logger : next.logger = some (request.logger level))
      (terminal : next.terminal = session.terminal ++ (request.logger level).greeting) :
      Answered session request (.ok (), next)

/-- Every request is answered in one of these ways. -/
lemma request_answered (session : Session) (request : Request) :
    session.Answered request (session.request request) := by
  rcases request.asks_or_declines_or_unknown with ⟨level, asks⟩ | declines | ⟨text, unknown⟩
  · by_cases effective : session.Effective request
    · cases taken : session.logger with
      | some logger =>
        have taken' : session.logger.isSome = true := Option.isSome_of_eq_some taken
        rw [request_of_taken effective taken']
        exact .refused effective taken'
      | none =>
        obtain ⟨answer, logger, terminal, -⟩ := request_of_free asks effective taken
        have e : session.request request = (.ok (), (session.request request).2) :=
          Prod.ext answer rfl
        rw [e]
        exact .installed effective taken logger terminal
    · rw [request_of_ineffective asks effective]
      exact .unmade asks effective
  · rw [request_of_declines declines]
    exact .declined declines
  · rw [request_of_unknown unknown]
    exact .unknown unknown

/-- A request that fails makes no difference, or it has left its log file behind. -/
lemma request_failed {error : LoggerError} (h : (session.request request).1 = .error error) :
    (error ≠ .alreadyInstalled ∧ (session.request request).2 = session) ∨
      (error = .alreadyInstalled ∧ session.Effective request ∧
        (session.request request).2 = session.opened request) := by
  have answered := session.request_answered request
  generalize session.request request = reply at answered h ⊢
  cases answered with
  | declined => cases h
  | unknown =>
    cases h
    exact .inl ⟨nofun, rfl⟩
  | unmade =>
    cases h
    exact .inl ⟨nofun, rfl⟩
  | refused effective =>
    cases h
    exact .inr ⟨rfl, effective, rfl⟩
  | installed => cases h

/-- A request that fails leaves the logger and the terminal as they are, and all files but one: the log
file that it wants is left behind, and empty, if the request fails only because there is a logger. So the
folder keeps its files and their texts, unless a request fails for that reason and there was no empty
file of that name. -/
theorem failed_request_keeps {error : LoggerError} (h : (session.request request).1 = .error error) :
    let after := (session.request request).2
    after.logger = session.logger ∧ after.terminal = session.terminal ∧
      (∀ name, after.folder.text? name =
        if error = .alreadyInstalled ∧ request.file? = some name then some ""
        else session.folder.text? name) ∧
      ((∀ name, after.folder.text? name = session.folder.text? name) ↔
        ∀ name, error = .alreadyInstalled → request.file? = some name →
          session.folder.text? name = some "") := by
  rcases request_failed h with ⟨ne, same⟩ | ⟨rfl, effective, left⟩
  · rw [same]
    exact ⟨rfl, rfl, fun name => (if_neg fun h => ne h.1).symm,
      iff_of_true (fun _ => rfl) fun _ e => absurd e ne⟩
  · rw [left]
    refine ⟨opened_logger, opened_terminal, fun name => ?_, ?_⟩
    · simp only [opened_text? effective, true_and]
    · simp only [opened_text? effective, true_imp_iff]
      refine forall_congr' fun name => ?_
      split
      case isTrue wanted => exact ⟨fun e _ => e.symm, fun e => (e wanted).symm⟩
      case isFalse other => exact iff_of_true rfl fun wanted => absurd wanted other

/-- A request for everything, on the terminal and in a file. -/
def verbose : Request where
  level := some "debug"
  toFile := true
  fileName := "log.txt"

/-- A request without a file. -/
def plain : Request where
  level := some "info"
  toFile := false
  fileName := ""

/-- If the same request comes twice, the second one fails and empties the log file of the first one. -/
theorem verbose_request_twice :
    let first := ((start .empty).request verbose).2
    let second := (first.request verbose).2
    (first.request verbose).1 = .error .alreadyInstalled ∧
      first.folder.text? "log.txt" = some "[INFO] Program started with loglevel: DEBUG\n" ∧
      second.folder.text? "log.txt" = some "" ∧ second.logger = first.logger := by
  intro first second
  have failed : (first.request verbose).1 = .error .alreadyInstalled := by decide +kernel
  obtain ⟨logger, -, files, -⟩ := failed_request_keeps failed
  exact ⟨failed, by decide +kernel, files "log.txt", logger⟩

/-- A request that fails can leave a file behind. -/
theorem not_all_failed_requests_traceless :
    ¬ ∀ (folder : Folder) (earlier : List Request) (request : Request) (error : LoggerError),
      let before := ((start folder).requests earlier).2
      (before.request request).1 = .error error →
        ∀ name, (before.request request).2.folder.text? name = before.folder.text? name := by
  intro traceless
  have same := traceless .empty [plain] verbose .alreadyInstalled (by decide +kernel) "log.txt"
  exact absurd same (by decide +kernel)

end Session

end Stepwise.Log
