-- Law of the learning-preferences onboarding: an interviewer asks four
-- questions, one after the other, and a profile is made of the answers. The
-- interviewer and the analyst are language models and may say anything.
import DrBoz.InvoicePayloads
import DrBoz.Lib.Runs
import DrBoz.Texts

open runs dr_boz.py dr_boz.texts

namespace dr_boz.learning_onboarding

/-! ## What is stored -/

def TARGET_QUESTION_COUNT : Nat := 4

inductive Status where
  | not_started
  | in_progress
  | completed
  | skipped
deriving DecidableEq, Repr

structure Answer where
  question : String
  answer : String
deriving DecidableEq, Repr

/-- `learning_preferences_onboarding_json`. A key that is missing reads as its
default here. -/
structure Onboarding where
  language_hint : Option String := none
  answers : List Answer := []
  asked_questions : Int := 0
  last_assistant_question : Option String := none
deriving DecidableEq, Repr

/-- `learning_preferences_profile_json`. -/
structure Profile where
  preferences : Dict
  confidence : PyFloat
  answers_count : Nat

/-- What the analyst makes of the answers. -/
structure Analysis where
  summary : String
  prompt_context : String
  preferences : Dict
  confidence : PyFloat

structure UserPreference where
  status : Status := .not_started
  onboarding : Option Onboarding := none
  summary : Option String := none
  prompt : Option String := none
  profile : Option Profile := none

structure Payload where
  status : Status
  questions_answered : Nat
  next_question : Option String
  summary : Option String
  prompt_context : Option String
  profile : Option Profile

/-! ## Questions -/

def _SKIP_KEYWORDS : List String :=
  ["skip", "later", "not now", "اسکیپ", "ردش کن", "بعدا", "بعداً", "فعلا نه", "فعلاً نه",
    "نمیخوام", "نمی‌خوام"]

def _FINISH_KEYWORDS : List String :=
  ["done", "finish", "enough", "تمام", "کافیه", "کافی", "تموم", "اتمام"]

def _is_persian_text (text : String) : Bool :=
  text.toList.any fun c => 0x600 ≤ c.val && c.val ≤ 0x6FF

/-- `_safe_str(value) or None`. -/
def safe_or_none (value : Option String) : Option String :=
  match value with
  | none => none
  | some text => if strip text = "" then none else some (strip text)

def _normalize_state (raw_state : Option Onboarding) : Onboarding :=
  match raw_state with
  | none => {}
  | some state =>
    { state with last_assistant_question := safe_or_none state.last_assistant_question }

-- `str.lower()`, whatever it does.
variable (lower : String → String)

def fa_questions : List String :=
  ["برای فهم بهتر، ترجیح می‌دی مفاهیم با مثال واقعی توضیح داده بشن یا توضیح مفهومی برات کافیه؟",
    "معمولاً جواب کوتاه و خلاصه می‌خوای یا توضیح کامل و عمیق؟",
    "تمرین کوتاه یا سوال تستی چقدر به یادگیریت کمک می‌کنه؟",
    "برای شروع یک موضوع جدید، اول دید کلی رو می‌خوای یا مسیر قدم‌به‌قدم؟"]

def en_questions : List String :=
  ["Do you learn better with concrete real-world examples, or conceptual explanations are enough?",
    "Do you usually prefer concise answers or detailed deep explanations?",
    "How much do short exercises or quiz-style checks help your learning?",
    "When starting a new topic, do you prefer a big-picture overview first or " ++
      "step-by-step guidance first?"]

def fa_greeting : String :=
  "سلام. می‌خوام سبک یادگیریت رو تنظیم کنم تا جواب‌هام شخصی‌سازی بشه. "

def en_greeting : String :=
  "Hi. I want to tune your learning profile so future responses are personalized. "

def _fallback_question (state : Onboarding) (first_turn : Bool) : String :=
  let questions :=
    if lower (strip (state.language_hint.getD "")) = "en" then en_questions else fa_questions
  let greeting :=
    if lower (strip (state.language_hint.getD "")) = "en" then en_greeting else fa_greeting
  if first_turn then greeting ++ questions.getD 0 ""
  else questions.getD (max 0 (min state.asked_questions (TARGET_QUESTION_COUNT - 1))).toNat ""

/-- The text of the interviewer, or `none` where there is no model or the call
fails. -/
def _generate_interviewer_turn (reply : Option String) (state : Onboarding) (first_turn : Bool) :
    String :=
  match safe_or_none reply with
  | some cleaned => cleaned
  | none => _fallback_question lower state first_turn

def _build_payload (user : UserPreference) : Payload :=
  let state := _normalize_state user.onboarding
  { status := user.status
    questions_answered := state.answers.length
    next_question := safe_or_none state.last_assistant_question
    summary := user.summary
    prompt_context := user.prompt
    profile := user.profile }

/-! ## The calls -/

/-- The dialogue that begins with this opening. -/
def opened (opening : String) : Onboarding :=
  { language_hint := some (if _is_persian_text opening then "fa" else "en")
    asked_questions := 1
    last_assistant_question := some opening }

def start_learning_preferences_onboarding (user : UserPreference) (restart : Bool)
    (reply : Option String) : UserPreference × Payload :=
  let state := _normalize_state user.onboarding
  let user :=
    if user.status = .in_progress ∧ ¬restart ∧ (safe_or_none state.last_assistant_question).isSome
    then { user with onboarding := some state }
    else
      { user with
        status := .in_progress
        onboarding := some (opened (_generate_interviewer_turn lower reply {} true)) }
  (user, _build_payload user)

def skip_learning_preferences_onboarding (user : UserPreference) : UserPreference × Payload :=
  let user : UserPreference :=
    { user with
      status := .skipped, summary := none, prompt := none, profile := none
      onboarding := some {} }
  (user, _build_payload user)

def finalize_learning_preferences_onboarding (user : UserPreference) (profile : Analysis) :
    UserPreference × Payload :=
  let state := _normalize_state user.onboarding
  let user : UserPreference :=
    { user with
      status := .completed
      summary := safe_or_none (some profile.summary)
      prompt := safe_or_none (some profile.prompt_context)
      profile := some ⟨profile.preferences, profile.confidence, state.answers.length⟩
      onboarding := some { answers := state.answers } }
  (user, _build_payload user)

/-- What the models say during one submission, in the order of the calls. -/
structure Replies where
  opening : Option String
  first : Option String
  next : Option String
  profile : Analysis

/-- The state that an answer is recorded in, with the question that it goes
with. -/
def asked (user : UserPreference) (text : String) (replies : Replies) : Onboarding × String :=
  let user :=
    if user.status ≠ .in_progress then
      (start_learning_preferences_onboarding lower user false replies.opening).1
    else user
  let state := _normalize_state user.onboarding
  let state := if _is_persian_text text then { state with language_hint := some "fa" } else state
  match safe_or_none state.last_assistant_question with
  | some last_question => (state, last_question)
  | none =>
    let last_question := _generate_interviewer_turn lower replies.first state true
    ({ state with asked_questions := 1, last_assistant_question := some last_question },
      last_question)

def submit_learning_preferences_answer (user : UserPreference) (message : String)
    (replies : Replies) : Except String (UserPreference × Payload) :=
  let text := strip message
  if text = "" then .error "message is required"
  else if contains_any _SKIP_KEYWORDS (lower text) then
    .ok (skip_learning_preferences_onboarding user)
  else
    let (state, last_question) := asked lower user text replies
    let state := { state with answers := state.answers ++ [⟨last_question, text⟩] }
    if contains_any _FINISH_KEYWORDS (lower text) ∧
        state.answers.length ≥ TARGET_QUESTION_COUNT then
      .ok (finalize_learning_preferences_onboarding { user with onboarding := some state }
        replies.profile)
    else if state.answers.length ≥ TARGET_QUESTION_COUNT then
      .ok (finalize_learning_preferences_onboarding { user with onboarding := some state }
        replies.profile)
    else
      let next_question := _generate_interviewer_turn lower replies.next state false
      let user :=
        { user with
          status := .in_progress
          onboarding := some { state with
            asked_questions := state.asked_questions + 1
            last_assistant_question := some next_question } }
      .ok (user, _build_payload user)

/-! ## The runs -/

/-- The user, with a record of the questions that were returned, and of how
many answers the dialogue has. -/
structure World where
  user : UserPreference := {}
  returned : List String := []
  answered : Nat := 0

inductive Event where
  | start (restart : Bool) (reply : Option String)
  | submit (message : String) (replies : Replies)
  | skip

/-- The call returns. A dialogue that is in progress goes on unless it is
restarted. -/
def World.returns (w : World) (answered : Nat) (result : UserPreference × Payload) : World :=
  { user := result.1
    returned := w.returned ++ result.2.next_question.toList
    answered }

/-- The answers of the dialogue that an answer goes to. -/
def World.so_far (w : World) : Nat := if w.user.status = .in_progress then w.answered else 0

def step (w : World) : Event → World
  | .start restart reply =>
    w.returns (if restart then 0 else w.so_far)
      (start_learning_preferences_onboarding lower w.user restart reply)
  | .submit message replies =>
    match submit_learning_preferences_answer lower w.user message replies with
    | .error _ => w
    | .ok result => w.returns (if result.1.status = .skipped then 0 else w.so_far + 1) result
  | .skip => w.returns 0 (skip_learning_preferences_onboarding w.user)

/-- The answer that a submission records. It is the newest one, unless the
submission fails or skips. -/
def recorded (w : World) : Event → Option Answer
  | .submit message replies =>
    match submit_learning_preferences_answer lower w.user message replies with
    | .error _ => none
    | .ok (user, _) =>
      if user.status = .skipped then none
      else user.onboarding.bind fun state => state.answers.getLast?
  | _ => none

/-- The user asks for no onboarding: by the call, or with a keyword that is
the whole message. -/
def Requested : Event → Prop
  | .skip => True
  | .submit message _ => lower (strip message) ∈ _SKIP_KEYWORDS
  | .start _ _ => False

/-- An answer goes with a question that was returned before. The dialogue is
completed by the fourth answer and by nothing else, and a profile is erased on
request only. -/
structure Proper (w : World) (e : Event) : Prop where
  paired : ∀ answer, recorded lower w e = some answer → answer.question ∈ w.returned
  completes : ∀ answer, recorded lower w e = some answer →
    ((step lower w e).user.status = .completed ↔
      (step lower w e).answered = TARGET_QUESTION_COUNT)
  only_then : recorded lower w e = none → (step lower w e).user.status = .completed →
    w.user.status = .completed
  erases : w.user.profile.isSome → (step lower w e).user.profile = none → Requested lower e

/-- A submission that records an answer comes while the dialogue is in
progress, or the opening of the new dialogue was returned before. A submission
with a skip keyword in it is the keyword, or there is no profile. -/
def Fits (w : World) : Event → Prop
  | .submit message replies =>
    strip message ≠ "" →
      if contains_any _SKIP_KEYWORDS (lower (strip message)) then
        lower (strip message) ∈ _SKIP_KEYWORDS ∨ w.user.profile = none
      else
        w.user.status = .in_progress ∨
          strip (_generate_interviewer_turn lower replies.opening {} true) ∈ w.returned
  | _ => True

/-! ## Questions are not blank -/

theorem strip_strip (s : String) : strip (strip s) = strip s :=
  invoice_payloads.strip_trimmed (invoice_payloads.trimmed_strip s)

theorem safe_or_none_some {text : String} (h : strip text ≠ "") :
    safe_or_none (some text) = some (strip text) := if_neg h

@[simp] theorem safe_or_none_twice (value : Option String) :
    safe_or_none (safe_or_none value) = safe_or_none value := by
  cases value with
  | none => rfl
  | some text =>
    by_cases h : strip text = ""
    · simp [safe_or_none, h]
    · rw [safe_or_none_some h, safe_or_none_some (by rwa [strip_strip]), strip_strip]

/-- A text with a character that is no blank. -/
def not_blank (text : String) : Bool := text.toList.any fun c => !isSpace c

theorem strip_not_blank {text : String} (h : not_blank text) : strip text ≠ "" := by
  intro hempty
  have hnil : ∀ c ∈ text.toList.dropWhile isSpace, isSpace c = true := by
    have hnil := congrArg String.toList hempty
    unfold strip at hnil
    rw [String.toList_ofList] at hnil
    simpa [List.dropWhile_eq_nil_iff] using hnil
  have hall : ∀ c ∈ text.toList, isSpace c = true := by
    rw [← List.dropWhile_eq_nil_iff]
    have hhead := List.head?_dropWhile_not isSpace text.toList
    cases hrest : text.toList.dropWhile isSpace with
    | nil => rfl
    | cons c rest =>
      rw [hrest] at hhead hnil
      rw [List.head?_cons] at hhead
      simp [hnil c List.mem_cons_self] at hhead
  obtain ⟨c, hc, hspace⟩ := List.any_eq_true.mp h
  rw [hall c hc] at hspace
  cases hspace

theorem not_blank_append {a : String} (h : not_blank a) (b : String) : not_blank (a ++ b) := by
  unfold not_blank at h ⊢
  rw [String.toList_append, List.any_append, h, Bool.true_or]

theorem not_blank_head {c : Char} {cs : List Char} (h : isSpace c = false) :
    not_blank (String.ofList (c :: cs)) := by
  unfold not_blank
  rw [String.toList_ofList, List.any_cons, h]
  rfl

set_option maxRecDepth 2000 in
theorem questions_not_blank : ∀ questions ∈ [fa_questions, en_questions], questions.length = 4 ∧
    ∀ question ∈ questions, not_blank question := by
  intro questions h
  simp only [List.mem_cons, List.not_mem_nil, or_false] at h
  rcases h with rfl | rfl
  · refine ⟨rfl, ?_⟩
    simp only [fa_questions, List.forall_mem_cons]
    exact ⟨not_blank_head (by decide), not_blank_head (by decide), not_blank_head (by decide),
      not_blank_head (by decide), by simp⟩
  · refine ⟨rfl, ?_⟩
    simp only [en_questions, List.forall_mem_cons]
    exact ⟨not_blank_head (by decide), not_blank_head (by decide), not_blank_head (by decide),
      not_blank_append (not_blank_head (by decide)) _, by simp⟩

set_option maxRecDepth 2000 in
theorem greetings_not_blank : not_blank fa_greeting ∧ not_blank en_greeting :=
  ⟨not_blank_head (by decide), not_blank_head (by decide)⟩

theorem fallback_not_blank (lower : String → String) (state : Onboarding) (first_turn : Bool) :
    not_blank (_fallback_question lower state first_turn) := by
  have hgreeting : ∀ p : Prop, [Decidable p] →
      not_blank (if p then en_greeting else fa_greeting) := by
    intro p _
    split
    · exact greetings_not_blank.2
    · exact greetings_not_blank.1
  have hquestion : ∀ p : Prop, [Decidable p] → ∀ n < 4,
      not_blank ((if p then en_questions else fa_questions).getD n "") := by
    intro p _ n hn
    obtain ⟨hlength, hall⟩ := questions_not_blank (if p then en_questions else fa_questions)
      (by split <;> simp)
    have hlt : n < (if p then en_questions else fa_questions).length := by omega
    rw [List.getD_eq_getElem?_getD, List.getElem?_eq_getElem hlt, Option.getD_some]
    exact hall _ (List.getElem_mem hlt)
  unfold _fallback_question
  simp only
  split
  · exact not_blank_append (hgreeting _) _
  · refine hquestion _ _ ?_
    have : max 0 (min state.asked_questions ((TARGET_QUESTION_COUNT : Int) - 1)) < 4 := by
      unfold TARGET_QUESTION_COUNT
      omega
    omega

/-- The interviewer never says nothing. -/
theorem turn_not_blank (lower : String → String) (reply : Option String) (state : Onboarding)
    (first_turn : Bool) :
    safe_or_none (some (_generate_interviewer_turn lower reply state first_turn)) =
      some (strip (_generate_interviewer_turn lower reply state first_turn)) := by
  refine safe_or_none_some ?_
  unfold _generate_interviewer_turn
  cases hreply : safe_or_none reply with
  | none => exact strip_not_blank (fallback_not_blank lower state first_turn)
  | some cleaned =>
    have htwice := safe_or_none_twice reply
    rw [hreply] at htwice
    intro hblank
    simp [safe_or_none, hblank] at htwice

/-! ## What a call does -/

section
variable {lower : String → String} {user : UserPreference} {o : Onboarding} {q message : String}
  {replies : Replies}

theorem payload_next_question (h : user.onboarding = some o) :
    (_build_payload user).next_question = safe_or_none o.last_assistant_question := by
  unfold _build_payload
  simp [h, _normalize_state]

/-- A dialogue that has a question goes on. -/
theorem start_goes_on (hstatus : user.status = .in_progress) (ho : user.onboarding = some o)
    (hq : safe_or_none o.last_assistant_question = some q) (reply : Option String) :
    start_learning_preferences_onboarding lower user false reply =
      ({ user with onboarding := some { o with last_assistant_question := some q } },
        _build_payload
          { user with onboarding := some { o with last_assistant_question := some q } }) := by
  have hlast : safe_or_none (some q) = some q := by
    have htwice := safe_or_none_twice o.last_assistant_question
    rwa [hq] at htwice
  unfold start_learning_preferences_onboarding
  simp [hstatus, ho, _normalize_state, hq, hlast]

/-- The dialogue is new otherwise. -/
theorem start_begins {restart : Bool} (h : user.status ≠ .in_progress ∨ restart)
    (reply : Option String) :
    start_learning_preferences_onboarding lower user restart reply =
      ({ user with
          status := .in_progress
          onboarding := some (opened (_generate_interviewer_turn lower reply {} true)) },
        _build_payload { user with
          status := .in_progress
          onboarding := some (opened (_generate_interviewer_turn lower reply {} true)) }) := by
  unfold start_learning_preferences_onboarding
  rcases h with h | h <;> simp [h]

theorem asked_going_on (lower : String → String) (text : String) (replies : Replies)
    (hstatus : user.status = .in_progress) (ho : user.onboarding = some o)
    (hq : safe_or_none o.last_assistant_question = some q) :
    ∃ state, asked lower user text replies = (state, q) ∧ state.answers = o.answers := by
  have htwice := safe_or_none_twice o.last_assistant_question
  rw [hq] at htwice
  unfold asked
  simp only [hstatus, ne_eq, not_true_eq_false, if_false, ho, _normalize_state, hq]
  cases _is_persian_text text
  · simp only [Bool.false_eq_true, if_false, htwice]
    exact ⟨_, rfl, rfl⟩
  · simp only [if_true, htwice]
    exact ⟨_, rfl, rfl⟩

/-- The question of a new dialogue is its opening. -/
theorem asked_anew (lower : String → String) (text : String) (replies : Replies)
    (hstatus : user.status ≠ .in_progress) :
    ∃ state, asked lower user text replies =
      (state, strip (_generate_interviewer_turn lower replies.opening {} true)) ∧
        state.answers = [] := by
  have hq := turn_not_blank lower replies.opening {} true
  have htwice := safe_or_none_twice
    (some (_generate_interviewer_turn lower replies.opening {} true))
  rw [hq] at htwice
  unfold asked
  simp only [if_pos hstatus, start_begins (.inl hstatus), _normalize_state, opened, hq]
  cases _is_persian_text text
  · simp only [Bool.false_eq_true, if_false, htwice]
    exact ⟨_, rfl, rfl⟩
  · simp only [if_true, htwice]
    exact ⟨_, rfl, rfl⟩

/-- A submission that records an answer: the fourth one completes the
dialogue, and the others get a question in return. -/
theorem submit_records {state : Onboarding} (htext : strip message ≠ "")
    (hskip : contains_any _SKIP_KEYWORDS (lower (strip message)) = false)
    (hasked : asked lower user (strip message) replies = (state, q)) :
    ∃ result o', submit_learning_preferences_answer lower user message replies = .ok result ∧
      result.1.onboarding = some o' ∧ o'.answers = state.answers ++ [⟨q, strip message⟩] ∧
      (result.1.status = .completed ∧ TARGET_QUESTION_COUNT ≤ state.answers.length + 1 ∧
          result.1.profile.isSome ∨
        result.1.status = .in_progress ∧ state.answers.length + 1 < TARGET_QUESTION_COUNT ∧
          result.1.profile = user.profile ∧
          ∃ q', safe_or_none o'.last_assistant_question = some q' ∧
            result.2.next_question = some q') := by
  unfold submit_learning_preferences_answer
  simp only [htext, if_false, hskip, Bool.false_eq_true, hasked, List.length_append,
    List.length_singleton]
  by_cases hlast : TARGET_QUESTION_COUNT ≤ state.answers.length + 1
  · simp only [ge_iff_le, hlast, and_true, if_true, ite_self]
    exact ⟨_, _, rfl, rfl, rfl, .inl ⟨rfl, trivial, rfl⟩⟩
  · simp only [ge_iff_le, hlast, and_false, if_false]
    refine ⟨_, _, rfl, rfl, rfl, .inr ⟨rfl, by omega, rfl, _, turn_not_blank lower _ _ _, ?_⟩⟩
    rw [payload_next_question rfl]
    exact turn_not_blank lower _ _ _

end

/-! ## What every step keeps -/

/-- A dialogue in progress has a question that was returned, and fewer than
four answers. -/
def Inv (w : World) : Prop :=
  w.user.status = .in_progress → ∃ o q, w.user.onboarding = some o ∧
    safe_or_none o.last_assistant_question = some q ∧ q ∈ w.returned ∧
      o.answers.length = w.answered ∧ w.answered < TARGET_QUESTION_COUNT

section
variable {lower : String → String} {w : World} {message : String} {replies : Replies}

theorem inv_of_status (h : w.user.status ≠ .in_progress) : Inv w := fun hstatus => absurd hstatus h

theorem so_far_lt (h : Inv w) : w.so_far < TARGET_QUESTION_COUNT := by
  unfold World.so_far
  split
  · next hstatus =>
    obtain ⟨o, q, -, -, -, -, hlt⟩ := h hstatus
    exact hlt
  · exact Nat.succ_pos 3

/-- The question that an answer would go with was returned, or opens a new
dialogue. -/
theorem asked_of_inv (lower : String → String) (h : Inv w) (text : String) (replies : Replies) :
    ∃ state q, asked lower w.user text replies = (state, q) ∧ state.answers.length = w.so_far ∧
      (q ∈ w.returned ↔ w.user.status = .in_progress ∨
        strip (_generate_interviewer_turn lower replies.opening {} true) ∈ w.returned) := by
  unfold World.so_far
  by_cases hstatus : w.user.status = .in_progress
  · obtain ⟨o, q, ho, hq, hreturned, hlength, -⟩ := h hstatus
    obtain ⟨state, hasked, hanswers⟩ := asked_going_on lower text replies hstatus ho hq
    rw [if_pos hstatus]
    exact ⟨state, q, hasked, by rw [hanswers, hlength], by simp [hreturned, hstatus]⟩
  · obtain ⟨state, hasked, hanswers⟩ := asked_anew lower text replies hstatus
    rw [if_neg hstatus]
    exact ⟨state, _, hasked, by rw [hanswers]; rfl, by simp [hstatus]⟩

theorem inv_start (h : Inv w) (restart : Bool) (reply : Option String) :
    Inv (step lower w (.start restart reply)) := by
  by_cases hgoes : w.user.status = .in_progress ∧ restart = false
  · obtain ⟨hstatus, rfl⟩ := hgoes
    obtain ⟨o, q, ho, hq, hreturned, hlength, hlt⟩ := h hstatus
    have hlast : safe_or_none (some q) = some q := by
      have htwice := safe_or_none_twice o.last_assistant_question
      rwa [hq] at htwice
    simp only [step, start_goes_on hstatus ho hq, World.so_far, hstatus, if_true]
    refine fun _ => ⟨_, q, rfl, hlast, ?_, hlength, hlt⟩
    exact List.mem_append_left _ hreturned
  · have hbegins : w.user.status ≠ .in_progress ∨ restart = true := by
      by_cases hstatus : w.user.status = .in_progress
      · exact .inr (by simpa [hstatus] using hgoes)
      · exact .inl hstatus
    have hzero : (if restart = true then 0 else w.so_far) = 0 := by
      rcases hbegins with hstatus | hrestart
      · simp [World.so_far, hstatus]
      · simp [hrestart]
    have hq := turn_not_blank lower reply {} true
    simp only [step, start_begins hbegins, hzero]
    refine fun _ => ⟨_, _, rfl, hq, ?_, rfl, Nat.succ_pos 3⟩
    refine List.mem_append_right _ (Option.mem_toList.mpr ?_)
    rw [payload_next_question rfl]
    exact hq

/-- The three ways of a submission. -/
theorem submit_cases (lower : String → String) (h : Inv w) (message : String) (replies : Replies) :
    (strip message = "" ∧ step lower w (.submit message replies) = w ∧
      recorded lower w (.submit message replies) = none) ∨
    (strip message ≠ "" ∧ contains_any _SKIP_KEYWORDS (lower (strip message)) = true ∧
      step lower w (.submit message replies) = step lower w .skip ∧
      recorded lower w (.submit message replies) = none) ∨
    (strip message ≠ "" ∧ contains_any _SKIP_KEYWORDS (lower (strip message)) = false ∧
      ∃ q, recorded lower w (.submit message replies) = some ⟨q, strip message⟩ ∧
        (q ∈ w.returned ↔ w.user.status = .in_progress ∨
          strip (_generate_interviewer_turn lower replies.opening {} true) ∈ w.returned) ∧
        (step lower w (.submit message replies)).answered = w.so_far + 1 ∧
        ((step lower w (.submit message replies)).user.status = .completed ∧
            TARGET_QUESTION_COUNT ≤ w.so_far + 1 ∧
            (step lower w (.submit message replies)).user.profile.isSome ∨
          (step lower w (.submit message replies)).user.status = .in_progress ∧
            w.so_far + 1 < TARGET_QUESTION_COUNT ∧
            (step lower w (.submit message replies)).user.profile = w.user.profile ∧
            Inv (step lower w (.submit message replies)))) := by
  by_cases htext : strip message = ""
  · have hsubmit : submit_learning_preferences_answer lower w.user message replies =
        .error "message is required" := if_pos htext
    exact .inl ⟨htext, by simp only [step, hsubmit], by simp only [recorded, hsubmit]⟩
  · cases hskip : contains_any _SKIP_KEYWORDS (lower (strip message)) with
    | true =>
      have hsubmit : submit_learning_preferences_answer lower w.user message replies =
          .ok (skip_learning_preferences_onboarding w.user) := by
        unfold submit_learning_preferences_answer
        simp only [htext, if_false, hskip, if_true]
      refine .inr (.inl ⟨htext, rfl, ?_, ?_⟩)
      · simp only [step, hsubmit]
        rfl
      · simp only [recorded, hsubmit]
        rfl
    | false =>
      obtain ⟨state, q, hasked, hlength, hreturned⟩ :=
        asked_of_inv lower h (strip message) replies
      obtain ⟨result, o', hsubmit, ho', hanswers, hend⟩ := submit_records htext hskip hasked
      have hstatus : result.1.status ≠ .skipped := by
        rcases hend with ⟨hend, -⟩ | ⟨hend, -⟩ <;> rw [hend] <;> decide
      have hstep : step lower w (.submit message replies) = w.returns (w.so_far + 1) result := by
        simp only [step, hsubmit, hstatus, if_false]
      refine .inr (.inr ⟨htext, rfl, q, ?_, hreturned, ?_, ?_⟩)
      · simp only [recorded, hsubmit, hstatus, if_false, ho', Option.bind_some, hanswers,
          List.getLast?_append, List.getLast?_singleton, Option.some_or]
      · rw [hstep]
        rfl
      · rw [hstep, ← hlength]
        rcases hend with ⟨hdone, hlast, hprofile⟩ | ⟨hopen, hmore, hprofile, q', hq', hnext⟩
        · exact .inl ⟨hdone, hlast, hprofile⟩
        · refine .inr ⟨hopen, hmore, hprofile, fun _ => ⟨o', q', ho', hq', ?_, ?_, hmore⟩⟩
          · exact List.mem_append_right _ (Option.mem_toList.mpr hnext)
          · rw [hanswers, List.length_append]
            rfl

theorem inv_step (w : World) (e : Event) (h : Inv w) : Inv (step lower w e) := by
  cases e with
  | start restart reply => exact inv_start h restart reply
  | skip =>
    exact inv_of_status (by simp [step, skip_learning_preferences_onboarding, World.returns])
  | submit message replies =>
    rcases submit_cases lower h message replies with
      ⟨-, hstep, -⟩ | ⟨-, -, hstep, -⟩ | ⟨-, -, q, -, -, -, ⟨hdone, -, -⟩ | ⟨-, -, -, hinv⟩⟩
    · rwa [hstep]
    · rw [hstep]
      exact inv_of_status (by simp [step, skip_learning_preferences_onboarding, World.returns])
    · exact inv_of_status (by simp [hdone])
    · exact hinv

theorem proper_iff_fits (w : World) (e : Event) (h : Inv w) :
    Proper lower w e ↔ Fits lower w e := by
  cases e with
  | start restart reply =>
    refine iff_of_true ⟨by simp [recorded], by simp [recorded], ?_, ?_⟩ trivial
    · intro _ hstatus
      simp only [step, start_learning_preferences_onboarding, World.returns] at hstatus
      split at hstatus
      · exact hstatus
      · cases hstatus
    · intro hsome hnone
      simp only [step, start_learning_preferences_onboarding, World.returns] at hnone
      split at hnone <;> (rw [hnone] at hsome; cases hsome)
  | skip =>
    refine iff_of_true ⟨by simp [recorded], by simp [recorded], ?_, ?_⟩ trivial
    · exact fun _ hstatus => nomatch hstatus
    · exact fun _ _ => trivial
  | submit message replies =>
    have hlt := so_far_lt h
    rcases submit_cases lower h message replies with ⟨htext, hstep, hnone⟩ |
      ⟨htext, hskip, hstep, hnone⟩ | ⟨htext, hskip, q, hsome, hreturned, hanswered, hend⟩
    · refine iff_of_true ⟨?_, ?_, ?_, ?_⟩ fun hne => absurd htext hne
      · simp [hnone]
      · simp [hnone]
      · intro _ hstatus
        rwa [hstep] at hstatus
      · intro hsome hgone
        rw [hstep] at hgone
        rw [hgone] at hsome
        cases hsome
    · constructor
      · intro hproper _
        rw [if_pos hskip]
        cases hprofile : w.user.profile with
        | none => exact .inr rfl
        | some profile => exact .inl (hproper.erases (by rw [hprofile]; rfl) (by rw [hstep]; rfl))
      · intro hfits
        have hrequested := hfits htext
        rw [if_pos hskip] at hrequested
        refine ⟨by simp [hnone], by simp [hnone], ?_, ?_⟩
        · rw [hstep]
          exact fun _ hstatus => nomatch hstatus
        · intro hsome _
          rcases hrequested with hrequested | hgone
          · exact hrequested
          · rw [hgone] at hsome
            cases hsome
    · have hfits : Fits lower w (.submit message replies) ↔ q ∈ w.returned := by
        simp only [Fits, ne_eq, htext, not_false_eq_true, forall_const, hskip, Bool.false_eq_true,
          if_false, hreturned]
      rw [hfits]
      constructor
      · intro hproper
        exact hproper.paired _ hsome
      · intro hq
        refine ⟨?_, ?_, ?_, ?_⟩
        · intro answer hanswer
          rw [hsome, Option.some.injEq] at hanswer
          rw [← hanswer]
          exact hq
        · intro _ _
          rw [hanswered]
          rcases hend with ⟨hdone, hlast, -⟩ | ⟨hopen, hmore, -, -⟩
          · exact iff_of_true hdone (by omega)
          · exact iff_of_false (by rw [hopen]; decide) (by omega)
        · rw [hsome]
          exact fun hnone => nomatch hnone
        · intro hprofile hgone
          rcases hend with ⟨-, -, hkept⟩ | ⟨-, -, hkept, -⟩
          · rw [hgone] at hkept
            cases hkept
          · rw [hkept] at hgone
            rw [hgone] at hprofile
            cases hprofile

end

/-! ## The law -/

/-- LAW: in every run of calls from a new user, whatever is said, each answer
goes with a question that was returned, the fourth one completes the dialogue,
and a profile is erased on request only, exactly when no answer is recorded
without a dialogue in progress (but by chance with a question of before), and
no message that has a skip keyword in it and is none meets a profile. -/
theorem onboarding_is_proper_iff_answers_are_asked_for (lower : String → String)
    (es : List Event) : Each (step lower) (Proper lower) {} es ↔
      Each (step lower) (Fits lower) {} es :=
  each_congr inv_step proper_iff_fits (inv_of_status (by decide)) es

/-- The interviewer and the analyst cannot be reached. -/
def no_replies : Replies :=
  { opening := none, first := none, next := none, profile := ⟨"", "", [], 0⟩ }

/-- LAW: the answer of a user who was asked nothing is recorded with a question
that the user has never seen. -/
theorem an_answer_goes_with_an_unseen_question :
    ¬Each (step fun text => text) (Proper fun text => text) {}
      [.submit "with examples" no_replies] := by
  rintro ⟨hproper, -⟩
  have hplain : contains_any _SKIP_KEYWORDS (strip "with examples") = false := by decide +kernel
  have hblank : strip "with examples" ≠ "" := by decide +kernel
  rcases submit_cases (fun text => text) (inv_of_status (w := {}) (by decide))
    "with examples" no_replies with ⟨hempty, -⟩ | ⟨-, hskip, -⟩ | ⟨-, -, q, hrecorded, -⟩
  · exact hblank hempty
  · rw [hplain] at hskip
    cases hskip
  · exact List.not_mem_nil (hproper.paired _ hrecorded)

end dr_boz.learning_onboarding
