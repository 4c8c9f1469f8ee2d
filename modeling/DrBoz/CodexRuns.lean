-- Law of the runs of a Codex completion: each result without a tool request is
-- the reply, and the usage of each run that returned is counted once. The scan
-- after the loop uses a name that `llm.py` does not import, so no call replies,
-- and what is raised in the loop comes before the accounting.
import DrBoz.CodexCompletions

open dr_boz.py dr_boz.cli_lines dr_boz.codex_prompts dr_boz.codex_completions
open dr_boz.codex_proxy (Recorded CodexAccount record_codex_account_usage)

namespace dr_boz.codex_runs

/-! ## The runs of a call -/

/-- The results of the runs that returned. -/
def returned (runs : List Run) : List Result := runs.filterMap fun run => run.result.toOption

/-- The usage of some results. -/
def usage_of (results : List Result) : Recorded :=
  results.foldl (fun total result => add_usage total result.usage) ⟨0, 0, 0⟩

/-- A call that gets to its loop, with this account and this prompt. -/
structure Opened (lib : Library) (s : Server) (heap : Heap) (messages : List Nat)
    (account : Account) (p : Prepared) : Prop where
  no_stream : s.stream = false
  account : s.selection = .account (some account)
  ready : ∃ after sent, llm_messages lib s heap messages = .ok (after, sent) ∧
    prepare lib s sent = .ok p
  login : ∃ status, s.check_codex_login_status = .ok status ∧ status.is_authenticated = true

/-- A finished run is answered and accounted. A call with no run counts nothing. -/
structure AnsweredAndAccounted (lib : Library) (s : Server) (heap : Heap) (messages : List Nat)
    (r : Report) : Prop where
  answered : ∀ result ∈ returned r.runs, s.extract_codex_tool_requests result.content = [] →
    ∃ response, r.outcome = .ok (.reply response) ∧
      response.content = s.sanitize_reply result.content (1 < r.runs.length)
  accounted : ∀ account p, Opened lib s heap messages account p → returned r.runs ≠ [] →
    r.account.map Account.toCodexAccount = some (record_codex_account_usage account.toCodexAccount
      (billed_usage p.effective_input_tokens (usage_of (returned r.runs))))
  idle : ∀ before after, s.selection = .account (some before) → r.account = some after →
    returned r.runs = [] → after.toCodexAccount = before.toCodexAccount
  limited : r.runs.length ≤ 10

/-- How a run goes on: only after a tool that answered there is a next one. -/
inductive Turn where
  | run_raises
  | answers
  | unknown_tool
  | tool_raises
  | goes_on
deriving DecidableEq, Repr

def turn (s : Server) (iteration : Nat) : Turn :=
  match s.run_codex_exec iteration with
  | .error _ => .run_raises
  | .ok result =>
    match s.extract_codex_tool_requests result.content with
    | [] => .answers
    | request :: _ =>
      match request.name.filter fun name => name ∈ s.tool_specs with
      | none => .unknown_tool
      | some name =>
        match s.execute_tool_call iteration name (request.arguments.or (.dict [])) with
        | .error _ => .tool_raises
        | .ok executed =>
          match executed.tool_result with
          | .error _ => .tool_raises
          | .ok _ => .goes_on

/-- The turns from an iteration on, with `left` iterations to go. -/
def turns (s : Server) : (left iteration : Nat) → List Turn
  | 0, _ => []
  | left + 1, iteration =>
    turn s iteration ::
      if turn s iteration = .goes_on then turns s left (iteration + 1) else []

/-- The usage can be merged into the metadata and committed. -/
def Saves (s : Server) : Prop := s.merge_codex_usage_metadata = .ok () ∧ s.commit = .ok ()

/-- The first run raises, or the usage is saved after a request for an unknown
tool or after ten requests that were all executed. -/
def Kept (s : Server) : Prop :=
  turns s 10 0 = [.run_raises] ∨
    Saves s ∧ ((turns s 10 0).getLast? = some .unknown_tool ∨
      (turns s 10 0).getLast? = some .goes_on)

/-! ## What an iteration does -/

section
variable {s : Server} {images : List ImageFile} {iteration : Nat} {l : Loop}

/-- What follows a run changes neither the runs nor the usage, and it ends as its
turn says. -/
structure Follows (before : Loop) (t : Turn) (after : Loop × Next) : Prop where
  runs : after.1.runs = before.runs
  usage : after.1.total_usage = before.total_usage
  goes_on : t = .goes_on → after.2 = .continues
  breaks : t = .answers ∨ t = .unknown_tool → after.2 = .breaks
  raises : t = .tool_raises → ∃ e, after.2 = .raises e

theorem answer_follows {result : Result} (hrun : s.run_codex_exec iteration = .ok result) :
    Follows l (turn s iteration) (answer_tool_request s iteration result.content l) := by
  unfold turn answer_tool_request
  rw [hrun]
  simp only
  rcases s.extract_codex_tool_requests result.content with _ | ⟨request, requests⟩
  · exact ⟨rfl, rfl, by simp, by simp, by simp⟩
  · simp only
    rcases request.name.filter fun name => name ∈ s.tool_specs with _ | name
    · exact ⟨rfl, rfl, by simp, by simp, by simp⟩
    · simp only
      rcases s.execute_tool_call iteration name (request.arguments.or (.dict [])) with e | executed
      · exact ⟨rfl, rfl, by simp, by simp, fun _ => ⟨e, rfl⟩⟩
      · simp only
        rcases executed.tool_result with e | text
        · exact ⟨rfl, rfl, by simp, by simp, fun _ => ⟨e, rfl⟩⟩
        · exact ⟨rfl, rfl, by simp, by simp, by simp⟩

theorem turn_raises {e : Raised} (hrun : s.run_codex_exec iteration = .error e) :
    turn s iteration = .run_raises := by
  unfold turn
  rw [hrun]

theorem turn_returns {result : Result} (hrun : s.run_codex_exec iteration = .ok result) :
    turn s iteration ≠ .run_raises := by
  unfold turn
  rw [hrun]
  simp only
  split
  · simp
  · split
    · simp
    · split
      · simp
      · split <;> simp

theorem turn_answers {result : Result} (hrun : s.run_codex_exec iteration = .ok result) :
    s.extract_codex_tool_requests result.content = [] ↔ turn s iteration = .answers := by
  unfold turn
  rw [hrun]
  simp only
  rcases s.extract_codex_tool_requests result.content with _ | ⟨request, requests⟩
  · simp
  · simp only [reduceCtorEq, false_iff]
    split
    · simp
    · split
      · simp
      · split <;> simp

/-- A run and its turn: it returned or raised, and what returned asks for a tool or not. -/
structure Fits (s : Server) (run : Run) (t : Turn) : Prop where
  returns : run.result.toOption.isSome = true ↔ t ≠ .run_raises
  answers : ∀ result ∈ run.result.toOption,
    s.extract_codex_tool_requests result.content = [] ↔ t = .answers

theorem fits (run : Run) (h : run.result = s.run_codex_exec iteration) :
    Fits s run (turn s iteration) := by
  cases hrun : s.run_codex_exec iteration with
  | error e =>
    refine ⟨?_, ?_⟩
    · rw [h, hrun, turn_raises hrun]
      simp [Except.toOption]
    · intro result hresult
      rw [h, hrun] at hresult
      cases hresult
  | ok result =>
    refine ⟨?_, ?_⟩
    · rw [h, hrun]
      simp [Except.toOption, turn_returns hrun]
    · intro other hother
      rw [h, hrun] at hother
      cases hother
      exact turn_answers hrun

/-- The loop after some turns: one run for each, and the usage is that of the runs. -/
structure Counted (s : Server) (l : Loop) (ts : List Turn) : Prop where
  runs : List.Forall₂ (Fits s) l.runs ts
  usage : l.total_usage = usage_of (returned l.runs)

theorem returned_snoc (runs : List Run) (run : Run) :
    returned (runs ++ [run]) = returned runs ++ run.result.toOption.toList := by
  unfold returned
  rw [List.filterMap_append]
  cases hrun : run.result.toOption <;> simp [hrun]

theorem iterate_counted {ts : List Turn} (h : Counted s l ts) :
    Counted s (iterate s images iteration l).1 (ts ++ [turn s iteration]) := by
  have hone : ∀ run : Run, run.result = s.run_codex_exec iteration →
      List.Forall₂ (Fits s) (l.runs ++ [run]) (ts ++ [turn s iteration]) := by
    intro run hresult
    exact List.rel_append h.runs (.cons (fits run hresult) .nil)
  unfold iterate
  simp only
  cases hrun : s.run_codex_exec iteration with
  | error e =>
    refine ⟨hone _ hrun.symm, ?_⟩
    simp only
    rw [returned_snoc, h.usage]
    simp [Except.toOption]
  | ok result =>
    have hfollows := answer_follows (l := { l with
      runs := l.runs ++ [⟨l.current_prompt, l.thread_id, if iteration = 0 then images else [],
        .ok result⟩]
      thread_id := strOr result.thread_id l.thread_id
      reply := result.content
      total_usage := add_usage l.total_usage result.usage
      stdout := result.stdout
      stderr := result.stderr }) hrun
    refine ⟨?_, ?_⟩
    · rw [hfollows.runs]
      exact hone _ hrun.symm
    · rw [hfollows.usage, hfollows.runs, returned_snoc, h.usage]
      simp [Except.toOption, usage_of]

/-- How an iteration ends, by its turn. -/
theorem iterate_next :
    (turn s iteration = .goes_on → (iterate s images iteration l).2 = .continues) ∧
    (turn s iteration = .answers ∨ turn s iteration = .unknown_tool →
      (iterate s images iteration l).2 = .breaks) ∧
    (turn s iteration = .run_raises ∨ turn s iteration = .tool_raises →
      ∃ e, (iterate s images iteration l).2 = .raises e) := by
  unfold iterate
  simp only
  cases hrun : s.run_codex_exec iteration with
  | error e =>
    rw [turn_raises hrun]
    simp
  | ok result =>
    have hfollows := fun l => answer_follows (l := l) hrun
    refine ⟨(hfollows _).goes_on, (hfollows _).breaks, ?_⟩
    rintro (hraises | hraises)
    · exact absurd hraises (turn_returns hrun)
    · exact (hfollows _).raises hraises

end

/-! ## What the loop does -/

section
variable {s : Server} {images : List ImageFile}

theorem turns_length (s : Server) : ∀ left iteration, (turns s left iteration).length ≤ left := by
  intro left
  induction left with
  | zero =>
    intro iteration
    exact Nat.le_refl 0
  | succ left ih =>
    intro iteration
    rw [turns, List.length_cons]
    split
    · exact Nat.succ_le_succ (ih (iteration + 1))
    · exact Nat.succ_le_succ (Nat.zero_le left)

/-- A turn that ends the call with an error. -/
def Turn.fails : Turn → Bool
  | .run_raises | .tool_raises => true
  | .answers | .unknown_tool | .goes_on => false

theorem loop_goes_on {iteration : Nat} (ht : turn s iteration = .goes_on) (left : Nat) (l : Loop) :
    tool_loop s images (left + 1) iteration l =
      tool_loop s images left (iteration + 1) (iterate s images iteration l).1 := by
  obtain ⟨hgoes_on, _, _⟩ := @iterate_next s images iteration l
  rw [tool_loop]
  rcases hiterate : iterate s images iteration l with ⟨after, next⟩
  rw [hiterate] at hgoes_on
  obtain rfl : next = .continues := hgoes_on ht
  rfl

/-- The loop stops at a turn that does not go on, and raises if this fails. -/
theorem loop_stops {iteration : Nat} (ht : turn s iteration ≠ .goes_on) (left : Nat) (l : Loop) :
    (tool_loop s images (left + 1) iteration l).1 = (iterate s images iteration l).1 ∧
      (tool_loop s images (left + 1) iteration l).2.isSome = (turn s iteration).fails := by
  obtain ⟨_, hbreaks, hraises⟩ := @iterate_next s images iteration l
  rw [tool_loop]
  rcases hiterate : iterate s images iteration l with ⟨after, next⟩
  rw [hiterate] at hbreaks hraises
  cases hturn : turn s iteration with
  | goes_on => exact absurd hturn ht
  | answers =>
    obtain rfl : next = .breaks := hbreaks (.inl hturn)
    exact ⟨rfl, rfl⟩
  | unknown_tool =>
    obtain rfl : next = .breaks := hbreaks (.inr hturn)
    exact ⟨rfl, rfl⟩
  | run_raises =>
    obtain ⟨e, rfl⟩ := hraises (.inl hturn)
    exact ⟨rfl, rfl⟩
  | tool_raises =>
    obtain ⟨e, rfl⟩ := hraises (.inr hturn)
    exact ⟨rfl, rfl⟩

/-- The loop makes one run for each turn and counts what they used, and it raises
if the last of them fails. -/
theorem loop_counted : ∀ (left iteration : Nat) (l : Loop) (ts : List Turn), Counted s l ts →
    Counted s (tool_loop s images left iteration l).1 (ts ++ turns s left iteration) ∧
      (tool_loop s images left iteration l).2.isSome =
        ((turns s left iteration).getLast?.map Turn.fails).getD false := by
  intro left
  induction left with
  | zero =>
    intro iteration l ts h
    rw [turns, List.append_nil]
    exact ⟨h, rfl⟩
  | succ left ih =>
    intro iteration l ts h
    have hone := @iterate_counted s images iteration l ts h
    by_cases ht : turn s iteration = .goes_on
    · obtain ⟨hcounted, hraised⟩ := ih (iteration + 1) _ _ hone
      rw [loop_goes_on ht, turns, if_pos ht, List.append_cons]
      refine ⟨hcounted, ?_⟩
      rw [hraised, List.getLast?_cons, ht]
      cases (turns s left (iteration + 1)).getLast? <;> rfl
    · obtain ⟨hafter, hraised⟩ := @loop_stops s images iteration ht left l
      rw [turns, if_neg ht, hafter, hraised]
      exact ⟨hone, rfl⟩

/-- A run with a prompt of its own: it has no label, and no image goes with it. -/
structure Bare (run : Run) : Prop where
  labels : run.prompt.labels = []
  messages : run.prompt.messages = []
  image_files : run.image_files = []

/-- The next prompt is the result of a tool. -/
theorem answer_prompt {iteration : Nat} {content : String} {l : Loop} :
    (answer_tool_request s iteration content l).2 = .continues →
      (answer_tool_request s iteration content l).1.current_prompt.labels = [] ∧
        (answer_tool_request s iteration content l).1.current_prompt.messages = [] := by
  unfold answer_tool_request
  rcases s.extract_codex_tool_requests content with _ | ⟨request, requests⟩
  · nofun
  · simp only
    rcases request.name.filter fun name => name ∈ s.tool_specs with _ | name
    · nofun
    · simp only
      rcases s.execute_tool_call iteration name (request.arguments.or (.dict [])) with e | executed
      · nofun
      · simp only
        rcases executed.tool_result with e | text
        · nofun
        · exact fun _ => ⟨rfl, rfl⟩

theorem iterate_prompt {iteration : Nat} {l : Loop}
    (h : (iterate s images iteration l).2 = .continues) :
    (iterate s images iteration l).1.current_prompt.labels = [] ∧
      (iterate s images iteration l).1.current_prompt.messages = [] := by
  unfold iterate at h ⊢
  simp only at h ⊢
  cases hrun : s.run_codex_exec iteration with
  | error e =>
    rw [hrun] at h
    cases h
  | ok result =>
    rw [hrun] at h
    exact answer_prompt h

/-- An iteration makes one run, with the prompt and the thread of the loop. -/
theorem iterate_runs (iteration : Nat) (l : Loop) : (iterate s images iteration l).1.runs =
    l.runs ++ [⟨l.current_prompt, l.thread_id, if iteration = 0 then images else [],
      s.run_codex_exec iteration⟩] := by
  unfold iterate
  simp only
  cases hrun : s.run_codex_exec iteration with
  | error e => rfl
  | ok result => exact (answer_follows hrun).runs

/-- The later runs are bare. -/
theorem later_runs : ∀ (left iteration : Nat) (l : Loop), l.current_prompt.labels = [] →
    l.current_prompt.messages = [] → 0 < iteration →
    ∃ later, (tool_loop s images left iteration l).1.runs = l.runs ++ later ∧
      ∀ run ∈ later, Bare run := by
  intro left
  induction left with
  | zero =>
    intro iteration l _ _ _
    exact ⟨[], (List.append_nil l.runs).symm, nofun⟩
  | succ left ih =>
    intro iteration l hlabels hmessages hlater
    have hruns := @iterate_runs s images iteration l
    have hprompt := @iterate_prompt s images iteration l
    have hbare : Bare ⟨l.current_prompt, l.thread_id, if iteration = 0 then images else [],
        s.run_codex_exec iteration⟩ := ⟨hlabels, hmessages, if_neg (Nat.ne_of_gt hlater)⟩
    rw [tool_loop]
    rcases hiterate : iterate s images iteration l with ⟨after, next⟩
    rw [hiterate] at hruns hprompt
    cases next with
    | continues =>
      obtain ⟨hlabels, hmessages⟩ := hprompt rfl
      obtain ⟨later, hlater, hall⟩ := ih (iteration + 1) after hlabels hmessages (by omega)
      refine ⟨_ :: later, ?_, List.forall_mem_cons.mpr ⟨hbare, hall⟩⟩
      rw [List.append_cons, ← hruns]
      exact hlater
    | breaks => exact ⟨[_], hruns, List.forall_mem_singleton.mpr hbare⟩
    | raises e => exact ⟨[_], hruns, List.forall_mem_singleton.mpr hbare⟩

/-- The loop starts with a run of its first prompt and all images. -/
theorem loop_runs (left : Nat) (l : Loop) (h : l.runs = []) :
    ∃ later, (tool_loop s images (left + 1) 0 l).1.runs =
        ⟨l.current_prompt, l.thread_id, images, s.run_codex_exec 0⟩ :: later ∧
      ∀ run ∈ later, Bare run := by
  have hruns := @iterate_runs s images 0 l
  have hprompt := @iterate_prompt s images 0 l
  rw [h, List.nil_append, if_pos rfl] at hruns
  rw [tool_loop]
  rcases hiterate : iterate s images 0 l with ⟨after, next⟩
  rw [hiterate] at hruns hprompt
  cases next with
  | continues =>
    obtain ⟨hlabels, hmessages⟩ := hprompt rfl
    obtain ⟨later, hlater, hall⟩ := later_runs left 1 after hlabels hmessages Nat.one_pos
    rw [hruns] at hlater
    exact ⟨later, hlater, hall⟩
  | breaks => exact ⟨[], hruns, nofun⟩
  | raises e => exact ⟨[], hruns, nofun⟩

end

/-! ## What the call leaves -/

section
variable {lib : Library} {s : Server} {heap : Heap} {messages : List Nat}
  {account : Account} {p : Prepared}

theorem handle_keeps (runs : List Run) (e : Raised) :
    (handle s heap account runs e).runs = runs ∧
    (handle s heap account runs e).account.map Account.toCodexAccount =
      some account.toCodexAccount ∧
    ∀ response, (handle s heap account runs e).outcome ≠ .ok (.reply response) := by
  unfold handle
  split
  · exact ⟨rfl, rfl, nofun⟩
  · split
    · exact ⟨rfl, rfl, nofun⟩
    · exact ⟨rfl, rfl, nofun⟩

/-- The name of the scan is not imported, so nothing is returned. -/
theorem never_responds (usage : Recorded) (l : Loop) (response : Response) :
    respond s usage l ≠ .ok (.reply response) := by
  have hname : look_up "build_codex_workspace" =
      .error (.exception ("name '" ++ "build_codex_workspace" ++ "' is not defined")) := by
    unfold look_up
    rw [if_neg (by decide)]
  unfold respond
  rw [hname]
  nofun

theorem finish_saves (l : Loop) (h : Saves s) :
    (finish s heap account p l).account.map Account.toCodexAccount =
      some (record_codex_account_usage account.toCodexAccount
        (billed_usage p.effective_input_tokens l.total_usage)) := by
  unfold finish
  rw [h.1, h.2]
  rfl

theorem finish_fails (l : Loop) (h : ¬Saves s) :
    (finish s heap account p l).account.map Account.toCodexAccount =
      some account.toCodexAccount := by
  unfold finish Saves at *
  cases hmerge : s.merge_codex_usage_metadata with
  | error e => rfl
  | ok _ =>
    cases hcommit : s.commit with
    | error e => rfl
    | ok _ => exact absurd ⟨hmerge, hcommit⟩ h

theorem finish_keeps (l : Loop) : (finish s heap account p l).runs = l.runs ∧
    ∀ response, (finish s heap account p l).outcome ≠ .ok (.reply response) := by
  unfold finish
  simp only
  split
  · exact ⟨rfl, nofun⟩
  · exact ⟨rfl, never_responds _ l⟩

/-- A call that gets to its loop: its runs follow the turns, and the usage is
recorded when the last one does not fail and can be saved. -/
structure Counts (s : Server) (account : Account) (p : Prepared) (r : Report) : Prop where
  runs : List.Forall₂ (Fits s) r.runs (turns s 10 0)
  records : ((turns s 10 0).getLast?.map Turn.fails).getD false = false → Saves s →
    r.account.map Account.toCodexAccount = some (record_codex_account_usage account.toCodexAccount
      (billed_usage p.effective_input_tokens (usage_of (returned r.runs))))
  loses : ((turns s 10 0).getLast?.map Turn.fails).getD false = true ∨ ¬Saves s →
    r.account.map Account.toCodexAccount = some account.toCodexAccount
  silent : ∀ response, r.outcome ≠ .ok (.reply response)

theorem run_tools_counts {status : Login} (hlogin : s.check_codex_login_status = .ok status)
    (hin : status.is_authenticated = true) : Counts s account p (run_tools s heap account p) := by
  have hstart : Counted s { current_prompt := p.prompt, thread_id := p.thread_id } [] :=
    ⟨.nil, rfl⟩
  obtain ⟨hcounted, hraised⟩ := @loop_counted s p.image_files 10 0 _ _ hstart
  rw [List.nil_append] at hcounted
  unfold run_tools
  rw [hlogin]
  simp only
  rw [if_pos hin]
  rcases hloop : tool_loop s p.image_files 10 0
    { current_prompt := p.prompt, thread_id := p.thread_id } with ⟨l, raised⟩
  rw [hloop] at hcounted hraised
  cases raised with
  | some e =>
    obtain ⟨hruns, haccount, hsilent⟩ := @handle_keeps s heap account
      l.runs e
    refine ⟨?_, ?_, fun _ => haccount, hsilent⟩
    · rw [hruns]
      exact hcounted.runs
    · intro hgood
      rw [← hraised] at hgood
      cases hgood
  | none =>
    obtain ⟨hruns, hsilent⟩ := @finish_keeps s heap account p l
    refine ⟨?_, ?_, ?_, hsilent⟩
    · rw [hruns]
      exact hcounted.runs
    · intro _ hsaves
      rw [finish_saves l hsaves, hruns, hcounted.usage]
    · rintro (hbad | hfails)
      · rw [← hraised] at hbad
        cases hbad
      · exact finish_fails l hfails

/-- A call that gets to its loop is the rest of it, from the objects after the edit on. -/
theorem opened_request (h : Opened lib s heap messages account p) :
    ∃ after sent, llm_messages lib s heap messages = .ok (after, sent) ∧
      prepare lib s sent = .ok p ∧
      request_codex_completion lib s heap messages = run_tools s after account p := by
  obtain ⟨after, sent, hmessages, hprepare⟩ := h.ready
  refine ⟨after, sent, hmessages, hprepare, ?_⟩
  unfold request_codex_completion
  rw [h.no_stream, h.account, hmessages]
  simp only [Bool.false_eq_true, if_false]
  rw [hprepare]

theorem opened_counts (h : Opened lib s heap messages account p) :
    Counts s account p (request_codex_completion lib s heap messages) := by
  obtain ⟨after, sent, _, _, hrequest⟩ := opened_request h
  obtain ⟨status, hlogin, hin⟩ := h.login
  rw [hrequest]
  exact run_tools_counts hlogin hin

/-- The prompt and the files are those of the messages. -/
theorem prepare_parts {sent : List Fields} (h : prepare lib s sent = .ok p) :
    p.prompt = messages_to_codex_prompt lib
        (messages_for_prompt (s.chat.bind Chat.codex_thread_id) (placed sent)) ∧
      extract_images_from_messages lib (placed sent) = .ok p.image_files := by
  unfold prepare at h
  simp only at h
  split at h
  · cases h
  · cases hfiles : extract_images_from_messages lib (placed sent) with
    | error e =>
      rw [hfiles] at h
      cases h
    | ok files =>
      rw [hfiles] at h
      cases h
      exact ⟨rfl, rfl⟩

/-- The runs of a call that gets to its loop: the first one has the prepared prompt
and all images. -/
theorem opened_runs (h : Opened lib s heap messages account p) :
    ∃ later, (request_codex_completion lib s heap messages).runs =
        ⟨p.prompt, p.thread_id, p.image_files, s.run_codex_exec 0⟩ :: later ∧
      ∀ run ∈ later, Bare run := by
  obtain ⟨after, sent, _, _, hrequest⟩ := opened_request h
  obtain ⟨status, hlogin, hin⟩ := h.login
  obtain ⟨later, hruns, hlater⟩ := @loop_runs s p.image_files 9
    { current_prompt := p.prompt, thread_id := p.thread_id } rfl
  refine ⟨later, ?_, hlater⟩
  rw [hrequest, run_tools, hlogin]
  simp only
  rw [if_pos hin, ← hruns]
  rcases tool_loop s p.image_files 10 0
    { current_prompt := p.prompt, thread_id := p.thread_id } with ⟨l, raised⟩
  cases raised with
  | some e => exact (handle_keeps l.runs e).1
  | none => exact (finish_keeps l).1

/-- What a call without a run leaves: no account has other counters. -/
structure Idle (s : Server) (r : Report) : Prop where
  runs : r.runs = []
  account : ∀ before after, s.selection = .account (some before) → r.account = some after →
    after.toCodexAccount = before.toCodexAccount

theorem handle_idle {before : Account} (h : s.selection = .account (some before)) (e : Raised) :
    Idle s (handle s heap before [] e) := by
  obtain ⟨hruns, haccount, _⟩ := @handle_keeps s heap before [] e
  refine ⟨hruns, ?_⟩
  intro other after hother hafter
  rw [h] at hother
  cases hother
  rw [hafter] at haccount
  exact Option.some.inj haccount

theorem refuse_idle {before : Account} (h : s.selection = .account (some before))
    (status : Login) : Idle s (refuse_login s heap before status) := by
  unfold refuse_login
  simp only
  split
  · exact handle_idle h _
  · refine ⟨rfl, ?_⟩
    intro other after hother hafter
    rw [h] at hother
    cases hother
    cases hafter
    rfl

theorem idle_without_account {r : Report} (hruns : r.runs = []) (haccount : r.account = none) :
    Idle s r := by
  refine ⟨hruns, ?_⟩
  intro before after _ hafter
  rw [haccount] at hafter
  cases hafter

theorem closed_idle (h : ∀ account p, ¬Opened lib s heap messages account p) :
    Idle s (request_codex_completion lib s heap messages) := by
  unfold request_codex_completion
  split
  · exact idle_without_account rfl rfl
  · rename_i hstream
    cases hselection : s.selection with
    | refused message code => exact idle_without_account rfl rfl
    | fallback content => exact idle_without_account rfl rfl
    | account found =>
      cases found with
      | none => exact idle_without_account rfl rfl
      | some before =>
        have hsame : ∀ outcome after, Idle s
            { heap := after, account := some before, outcome } := by
          intro outcome after
          refine ⟨rfl, ?_⟩
          intro other now hother hnow
          rw [hselection] at hother
          cases hother
          cases hnow
          rfl
        simp only
        rcases hmessages : llm_messages lib s heap messages with e | ⟨after, sent⟩
        · exact hsame _ _
        · simp only
          rcases hprepare : prepare lib s sent with e | p
          · exact hsame _ _
          · simp only [run_tools]
            rcases hlogin : s.check_codex_login_status with e | status
            · exact handle_idle hselection e
            · simp only
              split
              · rename_i hin
                exact absurd ⟨by simpa using hstream, hselection,
                  ⟨after, sent, hmessages, hprepare⟩, status, hlogin, hin⟩ (h before p)
              · exact refuse_idle hselection status

end

/-! ## The law -/

section
variable {lib : Library} {s : Server} {heap : Heap} {messages : List Nat}
  {account : Account} {p : Prepared} {r : Report}

/-- Something is always added. -/
theorem record_changes (account : CodexAccount) (usage : Recorded) :
    record_codex_account_usage account usage ≠ account := by
  intro hsame
  have hused := congrArg CodexAccount.five_hour_used hsame
  unfold record_codex_account_usage at hused
  simp only at hused
  have hpositive : 0 < (if (if usage.total_tokens ≤ 0 then usage.input_tokens + usage.output_tokens
      else usage.total_tokens) ≤ 0 then 1
      else if usage.total_tokens ≤ 0 then usage.input_tokens + usage.output_tokens
        else usage.total_tokens) := by
    split <;> omega
  cases hbefore : account.five_hour_used with
  | none =>
    rw [hbefore] at hused
    cases hused
  | some n =>
    rw [hbefore] at hused
    have hn := Option.some.inj hused
    unfold intOr0 at hn
    simp only [Option.getD_some] at hn
    omega

theorem first_raises (h : turn s 0 = .run_raises) : turns s 10 0 = [.run_raises] := by
  rw [turns, h, if_neg (by decide)]

theorem returned_cons_some {run : Run} {result : Result} (runs : List Run)
    (h : run.result.toOption = some result) :
    returned (run :: runs) = result :: returned runs :=
  List.filterMap_cons_some (f := fun run : Run => run.result.toOption) h

theorem returned_cons_none {run : Run} (runs : List Run) (h : run.result.toOption = none) :
    returned (run :: runs) = returned runs :=
  List.filterMap_cons_none (f := fun run : Run => run.result.toOption) h

/-- The first run tells whether one returned: after one that raised there is none. -/
theorem returned_iff (h : Counts s account p r) :
    returned r.runs = [] ↔ turn s 0 = .run_raises := by
  have hruns := h.runs
  constructor
  · intro hnone
    rw [turns] at hruns
    cases hr : r.runs with
    | nil =>
      rw [hr] at hruns
      cases hruns
    | cons run runs =>
      rw [hr] at hruns hnone
      obtain ⟨hfits, _⟩ := List.forall₂_cons.mp hruns
      by_contra hreturns
      obtain ⟨result, hresult⟩ := Option.isSome_iff_exists.mp (hfits.returns.mpr hreturns)
      rw [returned_cons_some runs hresult] at hnone
      cases hnone
  · intro hraises
    rw [first_raises hraises] at hruns
    obtain ⟨run, runs, hfits, hrest, hr⟩ := List.forall₂_cons_right_iff.mp hruns
    cases hrest
    have hnone : run.result.toOption = none := by
      by_contra hsome
      exact hfits.returns.mp (Option.isSome_iff_ne_none.mpr hsome) rfl
    rw [hr, returned_cons_none [] hnone]
    rfl

/-- A run that answers is the last one. -/
theorem answers_last (s : Server) : ∀ left iteration, .answers ∈ turns s left iteration →
    (turns s left iteration).getLast? = some .answers := by
  intro left
  induction left with
  | zero => nofun
  | succ left ih =>
    intro iteration hmem
    rw [turns] at hmem ⊢
    by_cases hgoes : turn s iteration = .goes_on
    · rw [if_pos hgoes, hgoes] at hmem ⊢
      rcases List.mem_cons.mp hmem with hfirst | hmem
      · cases hfirst
      · rw [List.getLast?_cons, ih _ hmem]
        rfl
    · rw [if_neg hgoes] at hmem ⊢
      rw [List.mem_singleton.mp hmem]
      rfl

/-- A result without a request is that of a turn which answers. -/
theorem answered_iff {runs : List Run} {ts : List Turn} (h : List.Forall₂ (Fits s) runs ts) :
    (∃ result ∈ returned runs, s.extract_codex_tool_requests result.content = []) ↔
      .answers ∈ ts := by
  induction h with
  | nil => simp [returned]
  | @cons run t runs ts hfits hrest ih =>
    rw [List.mem_cons, ← ih]
    cases hresult : run.result.toOption with
    | none =>
      have hraises : t = .run_raises := by
        by_contra hreturns
        have hsome := hfits.returns.mpr hreturns
        rw [hresult] at hsome
        cases hsome
      rw [returned_cons_none runs hresult, hraises]
      simp
    | some result =>
      rw [returned_cons_some runs hresult, eq_comm, ← hfits.answers result hresult]
      simp

theorem opened_unique {other : Account} {q : Prepared} (h : Opened lib s heap messages account p)
    (hother : Opened lib s heap messages other q) : other = account ∧ q = p := by
  have haccount := hother.account.symm.trans h.account
  cases haccount
  obtain ⟨after, sent, hmessages, hprepare⟩ := h.ready
  obtain ⟨after', sent', hmessages', hprepare'⟩ := hother.ready
  have hsent := hmessages'.symm.trans hmessages
  cases hsent
  have hp := hprepare'.symm.trans hprepare
  cases hp
  exact ⟨rfl, rfl⟩

theorem kept_silent (h : Kept s) : .answers ∉ turns s 10 0 := by
  intro hanswers
  have hends := answers_last s 10 0 hanswers
  rcases h with hraises | ⟨_, hunknown | hgoes⟩
  · rw [hraises] at hends
    cases hends
  · rw [hunknown] at hends
    cases hends
  · rw [hgoes] at hends
    cases hends

/-- A call that gets to its loop keeps the law exactly when its turns do. -/
theorem opened_iff (hopened : Opened lib s heap messages account p) (h : Counts s account p r) :
    AnsweredAndAccounted lib s heap messages r ↔ Kept s := by
  have hlast : turns s 10 0 ≠ [] := by
    rw [turns]
    simp
  constructor
  · intro hlaw
    by_cases hfirst : turn s 0 = .run_raises
    · exact .inl (first_raises hfirst)
    · have hreturned : returned r.runs ≠ [] := fun hnone => hfirst ((returned_iff h).mp hnone)
      have hrecord := hlaw.accounted account p hopened hreturned
      have hkept : ¬(((turns s 10 0).getLast?.map Turn.fails).getD false = true ∨ ¬Saves s) := by
        intro hlost
        rw [h.loses hlost] at hrecord
        exact record_changes _ _ (Option.some.inj hrecord).symm
      have hsilent : .answers ∉ turns s 10 0 := by
        intro hanswers
        obtain ⟨result, hresult, hnone⟩ := (answered_iff h.runs).mpr hanswers
        obtain ⟨response, hresponse, _⟩ := hlaw.answered result hresult hnone
        exact h.silent response hresponse
      obtain ⟨hgood, hsaves⟩ := not_or.mp hkept
      refine .inr ⟨not_not.mp hsaves, ?_⟩
      obtain ⟨t, ht⟩ := Option.isSome_iff_exists.mp (List.getLast?_isSome.mpr hlast)
      rw [ht] at hgood ⊢
      cases t with
      | run_raises => exact absurd rfl hgood
      | tool_raises => exact absurd rfl hgood
      | answers => exact absurd (List.mem_of_getLast? ht) hsilent
      | unknown_tool => exact .inl rfl
      | goes_on => exact .inr rfl
  · intro hkept
    have hlimited : r.runs.length ≤ 10 := by
      rw [h.runs.length_eq]
      exact turns_length s 10 0
    have hanswered : ∀ result ∈ returned r.runs,
        s.extract_codex_tool_requests result.content ≠ [] := by
      intro result hresult hnone
      exact kept_silent hkept ((answered_iff h.runs).mp ⟨result, hresult, hnone⟩)
    refine ⟨fun result hresult hnone => absurd hnone (hanswered result hresult), ?_, ?_, hlimited⟩
    · intro other q hother hreturned
      obtain ⟨rfl, rfl⟩ := opened_unique hopened hother
      rcases hkept with hraises | ⟨hsaves, hunknown | hgoes⟩
      · refine absurd ((returned_iff h).mpr ?_) hreturned
        rw [turns] at hraises
        exact (List.cons.inj hraises).1
      · exact h.records (by rw [hunknown]; rfl) hsaves
      · exact h.records (by rw [hgoes]; rfl) hsaves
    · intro before after hbefore hafter hnone
      rw [hopened.account] at hbefore
      cases hbefore
      have hlost := h.loses (.inl (by rw [first_raises ((returned_iff h).mp hnone)]; rfl))
      rw [hafter] at hlost
      exact Option.some.inj hlost

/-- LAW: a finished run is answered and accounted exactly when the call does not
get to its loop, or its first run raises, or its runs end with a request for an
unknown tool or with a tenth request that was executed, and the usage is saved. -/
theorem finished_runs_are_answered_iff (lib : Library) (s : Server) (heap : Heap)
    (messages : List Nat) :
    AnsweredAndAccounted lib s heap messages (request_codex_completion lib s heap messages) ↔
      ((∃ account p, Opened lib s heap messages account p) → Kept s) := by
  by_cases hopens : ∃ account p, Opened lib s heap messages account p
  · obtain ⟨account, p, hopened⟩ := hopens
    rw [opened_iff hopened (opened_counts hopened)]
    exact ⟨fun hkept _ => hkept, fun hkept => hkept ⟨account, p, hopened⟩⟩
  · have hclosed : ∀ account p, ¬Opened lib s heap messages account p :=
      fun account p hopened => hopens ⟨account, p, hopened⟩
    have hidle := closed_idle hclosed
    have hnone : returned (request_codex_completion lib s heap messages).runs = [] := by
      rw [hidle.runs]
      rfl
    refine ⟨fun _ hopened => absurd hopened hopens, fun _ => ⟨?_, ?_, ?_, ?_⟩⟩
    · intro result hresult
      rw [hnone] at hresult
      cases hresult
    · intro account p hopened
      exact absurd hopened (hclosed account p)
    · intro before after hbefore hafter _
      exact hidle.account before after hbefore hafter
    · rw [hidle.runs]
      exact Nat.zero_le 10

/-- A library, and a server whose only run answers without a request. -/
def answering_library : Library where
  repr _ := ""
  dumps _ := "null"
  is_word c := c.isAlphanum
  writes _ := true

def answering_server : Server where
  stream := false
  chat_id := none
  chat := none
  selection := .account (some
    { five_hour_used := some 0, weekly_used := some 0, status := "active"
      auth_status := "authenticated", last_error := none })
  system_content := "You are Dr. Boz."
  codex_tool_protocol := "### Custom Server Tools Protocol:"
  tool_specs := []
  check_codex_login_status := .ok ⟨true, "authenticated", "Logged in", ""⟩
  run_codex_exec _ := .ok ⟨"Hello", ⟨5, 1, 6⟩, none, "", ""⟩
  extract_codex_tool_requests _ := []
  execute_tool_call _ _ _ := .error (.exception "Tool implementation is not available")
  merge_codex_usage_metadata := .ok ()
  commit := .ok ()
  lower text := text
  sanitize_reply reply _ := reply
  workspace _ := []

/-- The answer to a greeting is not returned. -/
theorem a_greeting_is_not_answered :
    ¬AnsweredAndAccounted answering_library answering_server [message_of "user" (.str "Hi")] [0]
      (request_codex_completion answering_library answering_server
        [message_of "user" (.str "Hi")] [0]) := by
  intro hlaw
  have hreturned : returned (request_codex_completion answering_library answering_server
      [message_of "user" (.str "Hi")] [0]).runs = [⟨"Hello", ⟨5, 1, 6⟩, none, "", ""⟩] := rfl
  obtain ⟨response, hresponse, _⟩ := hlaw.answered ⟨"Hello", ⟨5, 1, 6⟩, none, "", ""⟩
    (hreturned ▸ List.mem_singleton_self _) rfl
  have hlost : (request_codex_completion answering_library answering_server
      [message_of "user" (.str "Hi")] [0]).outcome =
        .error (.exception "name 'build_codex_workspace' is not defined") := rfl
  rw [hlost] at hresponse
  cases hresponse

end

end dr_boz.codex_runs
