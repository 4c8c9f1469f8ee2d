-- Law of the stream of the Codex proxy: how it classifies a run of the CLI,
-- for every order in which the two pipes and the exit of the process reach the
-- loop. The status of the process is read once both pipes are closed, whether
-- or not it is there by then.
import DrBoz.CliLines
import DrBoz.Lib.Runs

open generators runs dr_boz.py dr_boz.codex_proxy dr_boz.cli_lines

namespace dr_boz.codex_stream

/-- A line of stderr, or the message of the `ValueError` that an overlong one
raises. -/
inductive StderrLine where
  | text (line : String)
  | overlong (error : String)
deriving DecidableEq, Repr

def StderrLine.readable : StderrLine → Bool
  | .text _ => true
  | .overlong _ => false

def StderrLine.shown : StderrLine → String
  | .text line => line
  | .overlong _ => ""

/-! ## The loop -/

inductive Reader (ε : Type) where
  | running
  | finished
  | died (error : ε)
deriving DecidableEq, Repr

/-- Where the generator is: in its loop over the queue, at the reader of
stderr, or at its end. -/
inductive Client where
  | reading
  | joining
  | ended
  | timed_out
deriving DecidableEq, Repr

structure State where
  status : Int
  stdout : List StdoutLine
  stderr : List StderrLine
  returncode : Option Int := none
  stdout_task : Reader ReaderError := .running
  stderr_task : Reader String := .running
  queue : List (Option String) := []
  full_content : String := ""
  total_usage : Int × Int := (0, 0)
  stderr_lines : String := ""
  client : Client := .reading
  out : List Line := []

/-- What happens next: a line or the end of a pipe, the notification of the
exit, a step of the generator, or the timeout of its wait. -/
inductive Turn where
  | stdout
  | stderr
  | exit
  | client
  | timeout
deriving DecidableEq, Repr

def content_line (text : String) : Line := .data { content := some text }

def error_line (error : String) : Line := .data { error := some error }

/-- `_read_stdout`, up to its next wait. -/
def read_stdout (s : State) : State :=
  match s.stdout_task, s.stdout with
  | .running, [] => { s with stdout_task := .finished, queue := s.queue ++ [none] }
  | .running, line :: rest =>
    let reading := read_line line
    let s := { s with
      stdout := rest
      queue := s.queue ++ reading.said.toList.map some
      full_content := s.full_content ++ reading.said.getD "" }
    match reading.usage with
    | .ok usage => { s with total_usage := usage.getD s.total_usage }
    | .error e => { s with stdout_task := .died e }
  | _, _ => s

/-- `_read_stderr`, up to its next wait. -/
def read_stderr (s : State) : State :=
  match s.stderr_task, s.stderr with
  | .running, [] => { s with stderr_task := .finished }
  | .running, .text line :: rest =>
    { s with stderr := rest, stderr_lines := s.stderr_lines ++ line }
  | .running, .overlong error :: rest => { s with stderr := rest, stderr_task := .died error }
  | _, _ => s

/-- The lines after both readers are through. -/
def last_lines (s : State) : List Line :=
  if s.returncode ≠ some 0 then
    [error_line (exit_message s.returncode s.stderr_lines s.full_content)]
  else [.data (final_chunk s.total_usage), .done]

/-- `await stdout_task`, which is over by then, and `await stderr_task`. -/
def join_readers (s : State) : State :=
  match s.stderr_task with
  | .running => { s with client := .joining }
  | .died error => { s with client := .ended, out := s.out ++ [error_line (first1000 error)] }
  | .finished => { s with client := .ended, out := s.out ++ last_lines s }

def client_turn (s : State) : State :=
  match s.client, s.queue with
  | .reading, some text :: queue => { s with queue, out := s.out ++ [content_line text] }
  | .reading, none :: queue => join_readers { s with queue }
  | .joining, _ => join_readers s
  | _, _ => s

/-- Nothing but the timeout can happen any more. -/
def Waits (s : State) : Prop :=
  s.client = .reading ∧ s.queue = [] ∧ s.stdout_task ≠ .running ∧ s.stderr_task ≠ .running ∧
    s.returncode ≠ none

instance (s : State) : Decidable (Waits s) := inferInstanceAs (Decidable (_ ∧ _))

def step (s : State) : Turn → State
  | .stdout => read_stdout s
  | .stderr => read_stderr s
  | .exit => { s with returncode := some s.status }
  | .client => client_turn s
  | .timeout =>
    if Waits s then
      { s with client := .timed_out, out := s.out ++ [error_line "Codex CLI timed out"] }
    else s

def start (status : Int) (stdout : List StdoutLine) (stderr : List StderrLine) : State :=
  { status, stdout, stderr }

/-- Nothing can happen any more. -/
def Settled (s : State) : Prop := ∀ t, step s t = s

/-! ## What the client should get -/

def contents (stdout : List StdoutLine) : List Line := (texts_of stdout).map content_line

/-- The stream is what the run of the CLI was: all texts in their order, and
then the two lines of a success or one error. It has not ended by the timeout. -/
structure Classified (stdout : List StdoutLine) (s : State) : Prop where
  success : s.status = 0 → ∃ usage, s.out = contents stdout ++ [.data (final_chunk usage), .done]
  failure : s.status ≠ 0 → ∃ error, s.out = contents stdout ++ [error_line error]
  in_time : s.client = .ended

/-! ## What a state has read -/

structure HasRead (stdout : List StdoutLine) (s : State) (read : List StdoutLine) : Prop where
  lines : stdout = read ++ s.stdout
  content : s.full_content = String.join (texts_of read)
  usage : s.total_usage = tokens_of read

/-- The texts between the reader of stdout and the client. -/
inductive Delivers (stdout : List StdoutLine) (s : State) : Prop where
  | reading (read : List StdoutLine) (sent queued : List String) (h : HasRead stdout s read)
      (htexts : texts_of read = sent ++ queued) (hout : s.out = sent.map content_line)
      (hqueue : s.queue = queued.map some) (hclient : s.client = .reading)
      (htask : (s.stdout_task = .running ∧ ∀ line ∈ read, line.readable = true) ∨
        (∃ e, s.stdout_task = .died e) ∧ ∃ line ∈ read, line.readable = false)
  | closing (sent queued : List String) (h : HasRead stdout s stdout)
      (hall : ∀ line ∈ stdout, line.readable = true)
      (htexts : texts_of stdout = sent ++ queued) (hout : s.out = sent.map content_line)
      (hqueue : s.queue = queued.map some ++ [none]) (hclient : s.client = .reading)
      (htask : s.stdout_task = .finished)
  | joining (h : HasRead stdout s stdout) (hall : ∀ line ∈ stdout, line.readable = true)
      (hout : s.out = contents stdout) (hqueue : s.queue = []) (hclient : s.client = .joining)
      (htask : s.stdout_task = .finished)
  | ended (hall : ∀ line ∈ stdout, line.readable = true) (hclient : s.client = .ended)
  | timed_out (hbad : ∃ line ∈ stdout, line.readable = false) (hclient : s.client = .timed_out)

/-- What the reader of stderr has. -/
inductive Hears (stderr : List StderrLine) (s : State) : Prop where
  | running (read : List StderrLine) (hlines : stderr = read ++ s.stderr)
      (hread : ∀ line ∈ read, line.readable = true)
      (hshown : s.stderr_lines = String.join (read.map StderrLine.shown))
      (htask : s.stderr_task = .running)
  | finished (hall : ∀ line ∈ stderr, line.readable = true)
      (hshown : s.stderr_lines = String.join (stderr.map StderrLine.shown))
      (htask : s.stderr_task = .finished)
  | died (error : String) (hbad : ∃ line ∈ stderr, line.readable = false)
      (htask : s.stderr_task = .died error)

/-- The lines after the texts, for the status that the generator has read. -/
def after_exit (returncode : Option Int) (stdout : List StdoutLine) (stderr : List StderrLine) :
    List Line :=
  if returncode ≠ some 0 then
    [error_line (exit_message returncode (String.join (stderr.map StderrLine.shown))
      (String.join (texts_of stdout)))]
  else [.data (final_chunk (tokens_of stdout)), .done]

/-- How a stream ends that has not timed out. -/
inductive Last (status : Int) (stdout : List StdoutLine) (stderr : List StderrLine) :
    List Line → Prop where
  | stderr_died (error : String) (hbad : ∃ line ∈ stderr, line.readable = false) :
      Last status stdout stderr [error_line (first1000 error)]
  | exited (returncode : Option Int) (h : returncode = none ∨ returncode = some status)
      (hall : ∀ line ∈ stderr, line.readable = true) :
      Last status stdout stderr (after_exit returncode stdout stderr)

structure Follows (status : Int) (stdout : List StdoutLine) (stderr : List StderrLine)
    (s : State) : Prop where
  exits : s.status = status
  returncode : s.returncode = none ∨ s.returncode = some status
  delivers : Delivers stdout s
  hears : Hears stderr s
  ends : s.client = .ended →
    ∃ last, s.out = contents stdout ++ last ∧ Last status stdout stderr last

section
variable {status : Int} {stdout : List StdoutLine} {stderr : List StderrLine} {s : State}

theorem follows_start (status : Int) (stdout : List StdoutLine) (stderr : List StderrLine) :
    Follows status stdout stderr (start status stdout stderr) where
  exits := rfl
  returncode := .inl rfl
  delivers := .reading [] [] [] ⟨rfl, rfl, rfl⟩ rfl rfl rfl rfl
    (.inl ⟨rfl, fun _ h => nomatch h⟩)
  hears := .running [] rfl (fun _ h => nomatch h) rfl rfl
  ends h := nomatch h

/-! ## One turn -/

theorem HasRead.append {s' : State} {read rest : List StdoutLine} {line : StdoutLine}
    (h : HasRead stdout s read) (hline : s.stdout = line :: rest) (hrest : s'.stdout = rest)
    (hcontent : s'.full_content = s.full_content ++ (read_line line).said.getD "")
    (husage : s'.total_usage = (read_line line).tokens s.total_usage) :
    HasRead stdout s' (read ++ [line]) where
  lines := by
    rw [h.lines, hline, hrest, List.append_assoc]
    rfl
  content := by
    rw [hcontent, h.content, texts_append, String.join_append]
    cases (read_line line).said with
    | none => simp
    | some text => simp
  usage := by
    rw [husage, h.usage]
    unfold tokens_of
    rw [List.foldl_append]
    rfl

/-- The readers, the exit and the timeout leave what the client has. -/
theorem Delivers.frame {stderr : List StderrLine} {task : Reader String} {shown : String}
    {returncode : Option Int} (h : Delivers stdout s) :
    Delivers stdout { s with stderr, stderr_task := task, stderr_lines := shown, returncode } := by
  cases h with
  | reading read sent queued h htexts hout hqueue hclient htask =>
    exact .reading read sent queued ⟨h.lines, h.content, h.usage⟩ htexts hout hqueue hclient htask
  | closing sent queued h hall htexts hout hqueue hclient htask =>
    exact .closing sent queued ⟨h.lines, h.content, h.usage⟩ hall htexts hout hqueue hclient htask
  | joining h hall hout hqueue hclient htask =>
    exact .joining ⟨h.lines, h.content, h.usage⟩ hall hout hqueue hclient htask
  | ended hall hclient => exact .ended hall hclient
  | timed_out hbad hclient => exact .timed_out hbad hclient

theorem read_stderr_eq (s : State) : ∃ stderr task shown,
    read_stderr s = { s with stderr, stderr_task := task, stderr_lines := shown } := by
  unfold read_stderr
  split
  · exact ⟨_, _, _, rfl⟩
  · exact ⟨_, _, _, rfl⟩
  · exact ⟨_, _, _, rfl⟩
  · exact ⟨_, _, _, rfl⟩

theorem read_stdout_eq (s : State) : ∃ lines task queue content usage,
    read_stdout s =
      { s with
        stdout := lines
        stdout_task := task
        queue
        full_content := content
        total_usage := usage } := by
  unfold read_stdout
  split
  · exact ⟨_, _, _, _, _, rfl⟩
  · dsimp only
    split
    · exact ⟨_, _, _, _, _, rfl⟩
    · exact ⟨_, _, _, _, _, rfl⟩
  · exact ⟨_, _, _, _, _, rfl⟩

theorem read_stdout_client (s : State) : (read_stdout s).client = s.client := by
  obtain ⟨lines, task, queue, content, usage, hturn⟩ := read_stdout_eq s
  rw [hturn]

theorem read_stdout_idle (h : s.stdout_task ≠ .running) : read_stdout s = s := by
  unfold read_stdout
  split
  · exact absurd ‹_› h
  · exact absurd ‹_› h
  · rfl

theorem read_stdout_end (htask : s.stdout_task = .running) (hline : s.stdout = []) :
    read_stdout s = { s with stdout_task := .finished, queue := s.queue ++ [none] } := by
  unfold read_stdout
  rw [htask, hline]

/-- The task of the reader after a line. -/
def task_after (r : Reading) : Reader ReaderError :=
  match r.usage with
  | .ok _ => .running
  | .error e => .died e

theorem read_stdout_line {line : StdoutLine} {rest : List StdoutLine}
    (htask : s.stdout_task = .running) (hline : s.stdout = line :: rest) :
    read_stdout s =
      { s with
        stdout := rest
        stdout_task := task_after (read_line line)
        queue := s.queue ++ (read_line line).said.toList.map some
        full_content := s.full_content ++ (read_line line).said.getD ""
        total_usage := (read_line line).tokens s.total_usage } := by
  unfold read_stdout task_after Reading.tokens
  rw [htask, hline]
  dsimp only
  cases husage : (read_line line).usage with
  | ok reported => simp only
  | error e => simp only

theorem task_of_readable (line : StdoutLine) :
    (task_after (read_line line) = .running ∧ line.readable = true) ∨
      (∃ e, task_after (read_line line) = .died e) ∧ line.readable = false := by
  unfold task_after StdoutLine.readable
  cases (read_line line).usage with
  | ok reported => exact .inl ⟨rfl, rfl⟩
  | error e => exact .inr ⟨⟨e, rfl⟩, rfl⟩

theorem delivers_stdout (h : Delivers stdout s) : Delivers stdout (read_stdout s) := by
  cases h with
  | reading read sent queued h htexts hout hqueue hclient htask =>
    rcases htask with ⟨htask, hread⟩ | ⟨⟨e, htask⟩, hbad⟩
    · cases hline : s.stdout with
      | nil =>
        rw [read_stdout_end htask hline]
        have hlines : stdout = read := by rw [h.lines, hline, List.append_nil]
        subst hlines
        exact .closing sent queued ⟨h.lines, h.content, h.usage⟩ hread htexts hout
          (by rw [hqueue]) hclient rfl
      | cons line rest =>
        rw [read_stdout_line htask hline]
        refine .reading (read ++ [line]) sent (queued ++ (read_line line).said.toList)
          (h.append hline rfl rfl rfl) ?_ hout ?_ hclient ?_
        · rw [texts_append, htexts, List.append_assoc]
        · rw [hqueue, List.map_append]
        · rcases task_of_readable line with ⟨htask, hreadable⟩ | ⟨hdied, hreadable⟩
          · refine .inl ⟨htask, fun x hx => ?_⟩
            rcases List.mem_append.mp hx with hold | hnew
            · exact hread x hold
            · rw [List.mem_singleton.mp hnew]
              exact hreadable
          · exact .inr ⟨hdied, line, List.mem_append_right _ (List.mem_singleton_self _),
              hreadable⟩
    · rw [read_stdout_idle (by rw [htask]; exact fun h => nomatch h)]
      exact .reading read sent queued h htexts hout hqueue hclient (.inr ⟨⟨e, htask⟩, hbad⟩)
  | closing sent queued h hall htexts hout hqueue hclient htask =>
    rw [read_stdout_idle (by rw [htask]; exact fun h => nomatch h)]
    exact .closing sent queued h hall htexts hout hqueue hclient htask
  | joining h hall hout hqueue hclient htask =>
    rw [read_stdout_idle (by rw [htask]; exact fun h => nomatch h)]
    exact .joining h hall hout hqueue hclient htask
  | ended hall hclient => exact .ended hall (by rw [read_stdout_client, hclient])
  | timed_out hbad hclient => exact .timed_out hbad (by rw [read_stdout_client, hclient])

theorem hears_stderr (h : Hears stderr s) : Hears stderr (read_stderr s) := by
  cases h with
  | running read hlines hread hshown htask =>
    unfold read_stderr
    rw [htask]
    cases hline : s.stderr with
    | nil =>
      have hall : stderr = read := by rw [hlines, hline, List.append_nil]
      subst hall
      exact .finished hread hshown rfl
    | cons line rest =>
      rw [hline] at hlines
      cases line with
      | overlong error =>
        refine .died error ⟨.overlong error, ?_, rfl⟩ rfl
        rw [hlines]
        exact List.mem_append_right _ List.mem_cons_self
      | text line =>
        refine .running (read ++ [.text line]) ?_ (fun x hx => ?_) ?_ rfl
        · rw [hlines, List.append_assoc]
          rfl
        · rcases List.mem_append.mp hx with hold | hnew
          · exact hread x hold
          · rw [List.mem_singleton.mp hnew]
            rfl
        · rw [List.map_append, String.join_append, ← hshown]
          simp [StderrLine.shown]
  | finished hall hshown htask =>
    unfold read_stderr
    rw [htask]
    exact .finished hall hshown htask
  | died error hbad htask =>
    unfold read_stderr
    rw [htask]
    exact .died error hbad htask

/-- What the reader of stderr has is its own. -/
theorem Hears.of_same {s' : State} (h : Hears stderr s) (hlines : s'.stderr = s.stderr)
    (htask : s'.stderr_task = s.stderr_task) (hshown : s'.stderr_lines = s.stderr_lines) :
    Hears stderr s' := by
  cases h with
  | running read hread hall hjoined hrunning =>
    exact .running read (by rw [hlines, hread]) hall (by rw [hshown, hjoined])
      (by rw [htask, hrunning])
  | finished hall hjoined hfinished =>
    exact .finished hall (by rw [hshown, hjoined]) (by rw [htask, hfinished])
  | died error hbad hdied => exact .died error hbad (by rw [htask, hdied])

/-! ## The end of the stream -/

/-- The generator has seen the end of stdout and waits for stderr at most. -/
def Joins (s : State) : Prop := s.client = .joining ∨ s.client = .reading ∧ s.queue = [none]

/-- The next turn of the generator reads the status of the process. -/
def ReadsStatus (s : State) : Prop := Joins s ∧ s.stderr_task = .finished

/-- What a state has in which the generator joins the readers. -/
structure Closed (stdout : List StdoutLine) (s : State) : Prop where
  read : HasRead stdout s stdout
  readable : ∀ line ∈ stdout, line.readable = true
  out : s.out = contents stdout
  finished : s.stdout_task = .finished

theorem Delivers.closed (h : Delivers stdout s) (hj : Joins s) : Closed stdout s := by
  cases h with
  | reading read sent queued h htexts hout hqueue hclient htask =>
    rcases hj with hj | ⟨-, hj⟩
    · rw [hclient] at hj
      cases hj
    · rw [hqueue] at hj
      cases queued with
      | nil => cases hj
      | cons text queued => cases hj
  | closing sent queued h hall htexts hout hqueue hclient htask =>
    rcases hj with hj | ⟨-, hj⟩
    · rw [hclient] at hj
      cases hj
    · rw [hqueue] at hj
      cases queued with
      | cons text queued => cases queued <;> cases hj
      | nil =>
        refine ⟨h, hall, ?_, htask⟩
        unfold contents
        rw [htexts, List.append_nil, hout]
  | joining h hall hout hqueue hclient htask => exact ⟨h, hall, hout, htask⟩
  | ended hall hclient =>
    rcases hj with hj | ⟨hj, -⟩
    · rw [hclient] at hj
      cases hj
    · rw [hclient] at hj
      cases hj
  | timed_out hbad hclient =>
    rcases hj with hj | ⟨hj, -⟩
    · rw [hclient] at hj
      cases hj
    · rw [hclient] at hj
      cases hj

theorem Delivers.joining_queue (h : Delivers stdout s) (hclient : s.client = .joining) :
    s.queue = [] := by
  cases h with
  | joining h hall hout hqueue hclient htask => exact hqueue
  | reading read sent queued h htexts hout hqueue hreading htask =>
    rw [hclient] at hreading
    cases hreading
  | closing sent queued h hall htexts hout hqueue hreading htask =>
    rw [hclient] at hreading
    cases hreading
  | ended hall hended =>
    rw [hclient] at hended
    cases hended
  | timed_out hbad htimed =>
    rw [hclient] at htimed
    cases htimed

/-- A turn of the generator that joins the readers. -/
theorem client_turn_joins (h : Delivers stdout s) (hj : Joins s) :
    client_turn s = join_readers { s with queue := [] } := by
  rcases hj with hclient | ⟨hclient, hqueue⟩
  · have hempty := h.joining_queue hclient
    have hsame : { s with queue := [] } = s := by rw [← hempty]
    rw [hsame]
    unfold client_turn
    rw [hclient, hempty]
  · unfold client_turn
    rw [hclient, hqueue]

theorem last_lines_eq (h : HasRead stdout s stdout)
    (hshown : s.stderr_lines = String.join (stderr.map StderrLine.shown)) :
    last_lines s = after_exit s.returncode stdout stderr := by
  unfold last_lines after_exit
  rw [h.content, h.usage, hshown]

/-- What the generator does next. -/
inductive ClientTurn (stdout : List StdoutLine) (s : State) : State → Prop where
  | idle : ¬Joins s → ClientTurn stdout s s
  | yields (text : String) (queue : List (Option String)) (hclient : s.client = .reading)
      (hqueue : s.queue = some text :: queue) :
      ClientTurn stdout s { s with queue, out := s.out ++ [content_line text] }
  | waits (h : Closed stdout s) (hj : Joins s) (htask : s.stderr_task = .running) :
      ClientTurn stdout s { s with queue := [], client := .joining }
  | died (error : String) (h : Closed stdout s) (hj : Joins s)
      (htask : s.stderr_task = .died error) :
      ClientTurn stdout s
        { s with queue := [], client := .ended, out := s.out ++ [error_line (first1000 error)] }
  | ends (h : Closed stdout s) (hj : Joins s) (htask : s.stderr_task = .finished) :
      ClientTurn stdout s
        { s with queue := [], client := .ended, out := s.out ++ last_lines s }

/-- Nothing is put into the queue after its end. -/
theorem Delivers.last_item (h : Delivers stdout s) (hclient : s.client = .reading)
    {queue : List (Option String)} (hqueue : s.queue = none :: queue) : s.queue = [none] := by
  cases h with
  | reading read sent queued h htexts hout hq hreading htask =>
    rw [hq] at hqueue
    cases queued with
    | nil => cases hqueue
    | cons text queued => cases hqueue
  | closing sent queued h hall htexts hout hq hreading htask =>
    rw [hq] at hqueue
    cases queued with
    | nil => exact hq
    | cons text queued => cases hqueue
  | joining h hall hout hq hjoining htask =>
    rw [hclient] at hjoining
    cases hjoining
  | ended hall hended =>
    rw [hclient] at hended
    cases hended
  | timed_out hbad htimed =>
    rw [hclient] at htimed
    cases htimed

theorem reader_cases {ε : Type} (r : Reader ε) :
    r = .running ∨ r = .finished ∨ ∃ error, r = .died error := by
  cases r with
  | running => exact .inl rfl
  | finished => exact .inr (.inl rfl)
  | died error => exact .inr (.inr ⟨error, rfl⟩)

theorem join_running (h : s.stderr_task = .running) :
    join_readers { s with queue := [] } = { s with queue := [], client := .joining } := by
  simp only [join_readers, h]

theorem join_finished (h : s.stderr_task = .finished) :
    join_readers { s with queue := [] } =
      { s with queue := [], client := .ended, out := s.out ++ last_lines s } := by
  simp only [join_readers, h]
  rfl

theorem join_died {error : String} (h : s.stderr_task = .died error) :
    join_readers { s with queue := [] } =
      { s with queue := [], client := .ended, out := s.out ++ [error_line (first1000 error)] } := by
  simp only [join_readers, h]

theorem clientTurn (h : Delivers stdout s) : ClientTurn stdout s (client_turn s) := by
  by_cases hj : Joins s
  · have hclosed := h.closed hj
    rw [client_turn_joins h hj]
    rcases reader_cases s.stderr_task with htask | htask | ⟨error, htask⟩
    · rw [join_running htask]
      exact .waits hclosed hj htask
    · rw [join_finished htask]
      exact .ends hclosed hj htask
    · rw [join_died htask]
      exact .died error hclosed hj htask
  · cases hclient : s.client with
    | joining => exact absurd (.inl hclient) hj
    | ended =>
      have hidle : client_turn s = s := by
        unfold client_turn
        rw [hclient]
      rw [hidle]
      exact .idle hj
    | timed_out =>
      have hidle : client_turn s = s := by
        unfold client_turn
        rw [hclient]
      rw [hidle]
      exact .idle hj
    | reading =>
      cases hqueue : s.queue with
      | nil =>
        have hidle : client_turn s = s := by
          unfold client_turn
          rw [hclient, hqueue]
        rw [hidle]
        exact .idle hj
      | cons item queue =>
        cases item with
        | some text =>
          have hturn : client_turn s = { s with queue, out := s.out ++ [content_line text] } := by
            unfold client_turn
            rw [hclient, hqueue]
          rw [hturn]
          exact .yields text queue hclient hqueue
        | none =>
          exact absurd (.inr ⟨hclient, h.last_item hclient hqueue⟩) hj

theorem delivers_client (h : Delivers stdout s) : Delivers stdout (client_turn s) := by
  have hturn := clientTurn h
  generalize client_turn s = s' at hturn
  cases hturn with
  | idle hj => exact h
  | waits hclosed hj htask =>
    exact .joining ⟨hclosed.read.lines, hclosed.read.content, hclosed.read.usage⟩ hclosed.readable
      hclosed.out rfl rfl hclosed.finished
  | died error hclosed hj htask => exact .ended hclosed.readable rfl
  | ends hclosed hj htask => exact .ended hclosed.readable rfl
  | yields text queue hclient hqueue =>
    cases h with
    | reading read sent queued h htexts hout hq hreading htask =>
      rw [hq] at hqueue
      cases queued with
      | nil => cases hqueue
      | cons first queued =>
        cases hqueue
        refine .reading read (sent ++ [text]) queued ⟨h.lines, h.content, h.usage⟩ ?_ ?_ rfl
          hreading htask
        · rw [htexts, List.append_assoc]
          rfl
        · rw [List.map_append, ← hout]
          rfl
    | closing sent queued h hall htexts hout hq hreading htask =>
      rw [hq] at hqueue
      cases queued with
      | nil => cases hqueue
      | cons first queued =>
        cases hqueue
        refine .closing (sent ++ [text]) queued ⟨h.lines, h.content, h.usage⟩ hall ?_ ?_ rfl
          hreading htask
        · rw [htexts, List.append_assoc]
          rfl
        · rw [List.map_append, ← hout]
          rfl
    | joining h hall hout hq hjoining htask =>
      rw [hclient] at hjoining
      cases hjoining
    | ended hall hended =>
      rw [hclient] at hended
      cases hended
    | timed_out hbad htimed =>
      rw [hclient] at htimed
      cases htimed

/-- Whoever waits for the timeout waits for a reader that has died. -/
theorem Delivers.dead (h : Delivers stdout s) (hw : Waits s) :
    ∃ line ∈ stdout, line.readable = false := by
  obtain ⟨hclient, hqueue, htask, -, -⟩ := hw
  cases h with
  | reading read sent queued h htexts hout hq hreading hreader =>
    rcases hreader with ⟨hrunning, -⟩ | ⟨-, line, hline, hbad⟩
    · exact absurd hrunning htask
    · exact ⟨line, by rw [h.lines]; exact List.mem_append_left _ hline, hbad⟩
  | closing sent queued h hall htexts hout hq hreading hreader =>
    rw [hq] at hqueue
    exact absurd hqueue (List.append_ne_nil_of_right_ne_nil _ (List.cons_ne_nil _ _))
  | joining h hall hout hq hjoining hreader =>
    rw [hclient] at hjoining
    cases hjoining
  | ended hall hended =>
    rw [hclient] at hended
    cases hended
  | timed_out hbad htimed => exact hbad

/-- A stream that has ended hands nothing more over. -/
theorem ended_stays (h : s.client = .ended) (t : Turn) :
    (step s t).client = .ended ∧ (step s t).out = s.out := by
  cases t with
  | stdout =>
    obtain ⟨lines, task, queue, content, usage, hturn⟩ := read_stdout_eq s
    rw [step, hturn]
    exact ⟨h, rfl⟩
  | stderr =>
    obtain ⟨lines, task, shown, hturn⟩ := read_stderr_eq s
    rw [step, hturn]
    exact ⟨h, rfl⟩
  | exit => exact ⟨h, rfl⟩
  | client =>
    have hidle : client_turn s = s := by
      unfold client_turn
      rw [h]
    rw [step, hidle]
    exact ⟨h, rfl⟩
  | timeout =>
    have hnot : ¬Waits s := by
      rintro ⟨hclient, -⟩
      rw [h] at hclient
      cases hclient
    rw [step, if_neg hnot]
    exact ⟨h, rfl⟩

/-- The stream ends in a turn of the generator that joins the readers. -/
inductive Ends (s : State) (stdout : List StdoutLine) (stderr : List StderrLine) :
    Turn → List Line → Prop where
  | stderr_died (error : String) (hbad : ∃ line ∈ stderr, line.readable = false) :
      Ends s stdout stderr .client [error_line (first1000 error)]
  | exited (h : ReadsStatus s) (hall : ∀ line ∈ stderr, line.readable = true) :
      Ends s stdout stderr .client (after_exit s.returncode stdout stderr)

theorem ends_in (h : Follows status stdout stderr s) (t : Turn) (hopen : s.client ≠ .ended)
    (hends : (step s t).client = .ended) :
    ∃ last, (step s t).out = contents stdout ++ last ∧ Ends s stdout stderr t last := by
  cases t with
  | stdout =>
    rw [step, read_stdout_client] at hends
    exact absurd hends hopen
  | stderr =>
    obtain ⟨lines, task, shown, hturn⟩ := read_stderr_eq s
    rw [step, hturn] at hends
    exact absurd hends hopen
  | exit => exact absurd hends hopen
  | timeout =>
    rw [step] at hends
    split at hends
    · cases hends
    · exact absurd hends hopen
  | client =>
    have hturn := clientTurn h.delivers
    rw [step] at hends ⊢
    generalize client_turn s = s' at hturn hends
    cases hturn with
    | idle hj => exact absurd hends hopen
    | yields text queue hclient hqueue => exact absurd hends hopen
    | waits hclosed hj htask => cases hends
    | died error hclosed hj htask =>
      refine ⟨_, congrArg (· ++ _) hclosed.out, .stderr_died _ ?_⟩
      cases h.hears with
      | running read hlines hread hshown hrunning =>
        rw [htask] at hrunning
        cases hrunning
      | finished hall hshown hfinished =>
        rw [htask] at hfinished
        cases hfinished
      | died error hbad hdied => exact hbad
    | ends hclosed hj htask =>
      cases h.hears with
      | running read hlines hread hshown hrunning =>
        rw [htask] at hrunning
        cases hrunning
      | died error hbad hdied =>
        rw [htask] at hdied
        cases hdied
      | finished hall hshown hfinished =>
        refine ⟨_, ?_, .exited ⟨hj, htask⟩ hall⟩
        rw [← last_lines_eq hclosed.read hshown, ← hclosed.out]

theorem Ends.last {t : Turn} {lines : List Line} (h : Ends s stdout stderr t lines)
    (hf : Follows status stdout stderr s) : Last status stdout stderr lines := by
  cases h with
  | stderr_died error hbad => exact .stderr_died error hbad
  | exited hreads hall => exact .exited _ hf.returncode hall

theorem follows_step (h : Follows status stdout stderr s) (t : Turn) :
    Follows status stdout stderr (step s t) := by
  have hends : (step s t).client = .ended →
      ∃ last, (step s t).out = contents stdout ++ last ∧ Last status stdout stderr last := by
    intro hclient
    by_cases hopen : s.client = .ended
    · rw [(ended_stays hopen t).2]
      exact h.ends hopen
    · obtain ⟨last, hout, hlast⟩ := ends_in h t hopen hclient
      exact ⟨last, hout, hlast.last h⟩
  cases t with
  | stdout =>
    have hdelivered := delivers_stdout h.delivers
    obtain ⟨lines, task, queue, content, usage, hturn⟩ := read_stdout_eq s
    rw [step, hturn] at hends ⊢
    rw [hturn] at hdelivered
    exact ⟨h.exits, h.returncode, hdelivered, h.hears.of_same rfl rfl rfl, hends⟩
  | stderr =>
    have hheard := hears_stderr h.hears
    obtain ⟨lines, task, shown, hturn⟩ := read_stderr_eq s
    rw [step, hturn] at hends ⊢
    rw [hturn] at hheard
    exact ⟨h.exits, h.returncode, h.delivers.frame, hheard, hends⟩
  | exit =>
    exact ⟨h.exits, .inr (congrArg some h.exits), h.delivers.frame, h.hears.of_same rfl rfl rfl,
      hends⟩
  | client =>
    have hkept : (client_turn s).status = s.status ∧ (client_turn s).returncode = s.returncode ∧
        (client_turn s).stderr = s.stderr ∧ (client_turn s).stderr_task = s.stderr_task ∧
        (client_turn s).stderr_lines = s.stderr_lines := by
      have hturn := clientTurn h.delivers
      generalize client_turn s = s' at hturn
      cases hturn with
      | idle | yields | waits | died | ends => exact ⟨rfl, rfl, rfl, rfl, rfl⟩
    obtain ⟨hexits, hcode, hlines, htask, hshown⟩ := hkept
    exact ⟨hexits.trans h.exits, h.returncode.imp hcode.trans hcode.trans,
      delivers_client h.delivers, h.hears.of_same hlines htask hshown, hends⟩
  | timeout =>
    rw [step] at hends ⊢
    split
    · rename_i hwaits
      exact ⟨h.exits, h.returncode, .timed_out (h.delivers.dead hwaits) rfl,
        h.hears.of_same rfl rfl rfl, fun hclient => nomatch hclient⟩
    · exact h

theorem follows_run (turns : List Turn) (h : Follows status stdout stderr s) :
    Follows status stdout stderr (after step s turns) := by
  induction turns generalizing s with
  | nil => exact h
  | cons t turns ih => exact ih (follows_step h t)

/-! ## Every run comes to its end -/

def Reader.left {ε : Type} : Reader ε → Nat
  | .running => 1
  | _ => 0

def Client.left : Client → Nat
  | .reading => 2
  | .joining => 1
  | _ => 0

/-- How much can still happen. A line of stdout can become an item of the
queue. -/
def State.left (s : State) : Nat :=
  2 * s.stdout.length + 2 * s.stdout_task.left + s.queue.length + s.stderr.length +
    s.stderr_task.left + (if s.returncode = none then 1 else 0) + s.client.left

theorem read_stdout_left (htask : s.stdout_task = .running) : (read_stdout s).left < s.left := by
  cases hline : s.stdout with
  | nil =>
    rw [read_stdout_end htask hline]
    simp only [State.left, htask, Reader.left, List.length_append, List.length_singleton]
    omega
  | cons line rest =>
    rw [read_stdout_line htask hline]
    have htoList : (read_line line).said.toList.length ≤ 1 := by
      cases (read_line line).said <;> simp
    have hleft : (task_after (read_line line)).left ≤ 1 := by
      cases task_after (read_line line) <;> simp [Reader.left]
    have hrunning : (Reader.running : Reader ReaderError).left = 1 := rfl
    simp only [State.left, htask, hline, hrunning, List.length_append, List.length_map,
      List.length_cons]
    omega

theorem read_stderr_left (htask : s.stderr_task = .running) : (read_stderr s).left < s.left := by
  cases hline : s.stderr with
  | nil =>
    simp only [read_stderr, State.left, htask, hline, Reader.left]
    omega
  | cons line rest =>
    cases line with
    | text line =>
      simp only [read_stderr, State.left, htask, hline, Reader.left, List.length_cons]
      omega
    | overlong error =>
      simp only [read_stderr, State.left, htask, hline, Reader.left, List.length_cons]
      omega

theorem read_stderr_idle (htask : s.stderr_task ≠ .running) : read_stderr s = s := by
  rcases reader_cases s.stderr_task with hrunning | hfinished | ⟨error, hdied⟩
  · exact absurd hrunning htask
  · simp only [read_stderr, hfinished]
  · simp only [read_stderr, hdied]

theorem exit_left (hnone : s.returncode = none) : (step s .exit).left < s.left := by
  simp only [step, State.left, hnone, if_true, reduceCtorEq, if_false]
  omega

theorem joins_left (hj : Joins s) : 1 ≤ s.queue.length + s.client.left := by
  rcases hj with hclient | ⟨hclient, hqueue⟩
  · rw [hclient]
    exact Nat.le_add_left 1 _
  · rw [hclient]
    exact Nat.le_add_left_of_le (by decide)

theorem client_left (h : Delivers stdout s) :
    (client_turn s).left < s.left ∨ client_turn s = s := by
  have hended : Client.ended.left = 0 := rfl
  have hturn := clientTurn h
  generalize client_turn s = s' at hturn
  cases hturn with
  | idle hj => exact .inr rfl
  | yields text queue hclient hqueue =>
    left
    simp only [State.left, hqueue, List.length_cons]
    omega
  | waits hclosed hj htask =>
    rcases hj with hclient | ⟨hclient, hqueue⟩
    · right
      have hempty := h.joining_queue hclient
      rw [← hclient, ← hempty]
    · left
      have hleft : Client.reading.left = Client.joining.left + 1 := rfl
      simp only [State.left, hclient, hqueue, hleft, List.length_nil, List.length_singleton]
      omega
  | died error hclosed hj htask =>
    left
    have hleft := joins_left hj
    simp only [State.left, hended, List.length_nil]
    omega
  | ends hclosed hj htask =>
    left
    have hleft := joins_left hj
    simp only [State.left, hended, List.length_nil]
    omega

/-- A turn does nothing, or less is left. -/
theorem step_left (h : Follows status stdout stderr s) (t : Turn) :
    (step s t).left < s.left ∨ step s t = s := by
  cases t with
  | stdout =>
    by_cases htask : s.stdout_task = .running
    · exact .inl (read_stdout_left htask)
    · exact .inr (read_stdout_idle htask)
  | stderr =>
    by_cases htask : s.stderr_task = .running
    · exact .inl (read_stderr_left htask)
    · exact .inr (read_stderr_idle htask)
  | exit =>
    rcases h.returncode with hnone | hsome
    · exact .inl (exit_left hnone)
    · right
      have hsame : some s.status = s.returncode := by rw [hsome, h.exits]
      simp only [step, hsame]
  | client => exact client_left h.delivers
  | timeout =>
    rw [step]
    split
    · rename_i hwaits
      left
      have htimed : Client.timed_out.left = 0 := rfl
      have hreading : Client.reading.left = 2 := rfl
      simp only [State.left, hwaits.1, htimed, hreading]
      omega
    · exact .inr rfl

/-- Where nothing can happen any more, the stream is over. -/
theorem settled_over (h : Follows status stdout stderr s) (hs : Settled s) :
    s.client = .ended ∨ s.client = .timed_out := by
  have hstderr : s.stderr_task ≠ .running := fun htask => by
    have hless := read_stderr_left htask
    rw [show read_stderr s = s from hs .stderr] at hless
    exact lt_irrefl _ hless
  have hstdout : s.stdout_task ≠ .running := fun htask => by
    have hless := read_stdout_left htask
    rw [show read_stdout s = s from hs .stdout] at hless
    exact lt_irrefl _ hless
  have hexit : s.returncode ≠ none := fun hnone => by
    have hless := exit_left hnone
    rw [hs .exit] at hless
    exact lt_irrefl _ hless
  have hclient : client_turn s = s := hs .client
  by_cases hj : Joins s
  · rw [client_turn_joins h.delivers hj] at hclient
    rcases reader_cases s.stderr_task with htask | htask | ⟨error, htask⟩
    · exact absurd htask hstderr
    · rw [join_finished htask] at hclient
      exact .inl (congrArg State.client hclient).symm
    · rw [join_died htask] at hclient
      exact .inl (congrArg State.client hclient).symm
  · cases hopen : s.client with
    | ended => exact .inl rfl
    | timed_out => exact .inr rfl
    | joining => exact absurd (.inl hopen) hj
    | reading =>
      cases hqueue : s.queue with
      | nil =>
        have htimeout := hs .timeout
        rw [step, if_pos ⟨hopen, hqueue, hstdout, hstderr, hexit⟩] at htimeout
        exact .inr (hopen ▸ (congrArg State.client htimeout).symm)
      | cons item queue =>
        cases item with
        | none => exact absurd (.inr ⟨hopen, h.delivers.last_item hopen hqueue⟩) hj
        | some text =>
          unfold client_turn at hclient
          rw [hopen, hqueue] at hclient
          have hshorter : queue = s.queue := congrArg State.queue hclient
          rw [hqueue] at hshorter
          exact absurd hshorter.symm (List.cons_ne_self _ _)

/-! ## The law -/

/-- The generator reads the status of the process once it is there. -/
def Notified (s : State) (t : Turn) : Prop := t = .client → ReadsStatus s → s.returncode ≠ none

theorem ended_run (turns : List Turn) (h : s.client = .ended) :
    (after step s turns).client = .ended ∧ (after step s turns).out = s.out := by
  induction turns generalizing s with
  | nil => exact ⟨h, rfl⟩
  | cons t turns ih =>
    obtain ⟨hclient, hout⟩ := ended_stays h t
    rw [after_cons, ← hout]
    exact ih hclient

theorem reads_status_ends (h : Follows status stdout stderr s) (hr : ReadsStatus s) :
    (step s .client).client = .ended ∧
      (step s .client).out = contents stdout ++ after_exit s.returncode stdout stderr := by
  obtain ⟨hj, htask⟩ := hr
  have hclosed := h.delivers.closed hj
  rw [step, client_turn_joins h.delivers hj, join_finished htask]
  refine ⟨rfl, ?_⟩
  cases h.hears with
  | running read hlines hread hshown hrunning =>
    rw [htask] at hrunning
    cases hrunning
  | died error hbad hdied =>
    rw [htask] at hdied
    cases hdied
  | finished hall hshown hfinished => rw [← last_lines_eq hclosed.read hshown, ← hclosed.out]

theorem after_exit_failure (stdout : List StdoutLine) (stderr : List StderrLine)
    {returncode : Option Int} (h : returncode ≠ some 0) :
    ∃ error, after_exit returncode stdout stderr = [error_line error] := by
  unfold after_exit
  rw [if_pos h]
  exact ⟨_, rfl⟩

theorem after_exit_zero : after_exit (some 0) stdout stderr =
    [.data (final_chunk (tokens_of stdout)), .done] := rfl

/-- An error is not the end of a success. -/
theorem success_not_failure {lines : List Line} {chunk : Chunk} {error : String}
    (h : lines ++ [error_line error] = lines ++ [.data chunk, .done]) : False := by
  have hlength := congrArg List.length (List.append_cancel_left h)
  cases hlength

theorem Follows.ended_readable (h : Follows status stdout stderr s) (he : s.client = .ended) :
    ∀ line ∈ stdout, line.readable = true := by
  cases h.delivers with
  | ended hall hclient => exact hall
  | closing sent queued h hall htexts hout hqueue hclient htask => exact hall
  | joining h hall hout hqueue hclient htask => exact hall
  | reading read sent queued h htexts hout hqueue hclient htask =>
    rw [he] at hclient
    cases hclient
  | timed_out hbad hclient =>
    rw [he] at hclient
    cases hclient

theorem Follows.in_time (h : Follows status stdout stderr s) (hs : Settled s)
    (hall : ∀ line ∈ stdout, line.readable = true) : s.client = .ended := by
  refine (settled_over h hs).resolve_right fun htimed => ?_
  have hbad : ∃ line ∈ stdout, line.readable = false := by
    cases h.delivers with
    | timed_out hbad hclient => exact hbad
    | ended hall hclient =>
      rw [htimed] at hclient
      cases hclient
    | closing sent queued h hall htexts hout hqueue hclient htask =>
      rw [htimed] at hclient
      cases hclient
    | joining h hall hout hqueue hclient htask =>
      rw [htimed] at hclient
      cases hclient
    | reading read sent queued h htexts hout hqueue hclient htask =>
      rw [htimed] at hclient
      cases hclient
  obtain ⟨line, hline, hunreadable⟩ := hbad
  rw [hall line hline] at hunreadable
  cases hunreadable

/-- A run that succeeds and whose status is there in time. -/
theorem success_run (turns : List Turn) (hstderr : ∀ line ∈ stderr, line.readable = true)
    (hnotified : Each step Notified (start 0 stdout stderr) turns)
    (he : (after step (start 0 stdout stderr) turns).client = .ended) :
    (after step (start 0 stdout stderr) turns).out =
      contents stdout ++ [.data (final_chunk (tokens_of stdout)), .done] := by
  refine (hnotified.keeps (I := fun s => Follows 0 stdout stderr s ∧ (s.client = .ended →
    s.out = contents stdout ++ [.data (final_chunk (tokens_of stdout)), .done])) ?_
    ⟨follows_start 0 stdout stderr, fun h => nomatch h⟩).2 he
  rintro s t ⟨hs, hdone⟩ hnotified
  refine ⟨follows_step hs t, fun hends => ?_⟩
  by_cases hopen : s.client = .ended
  · rw [(ended_stays hopen t).2]
    exact hdone hopen
  · obtain ⟨last, hout, hlast⟩ := ends_in hs t hopen hends
    rw [hout]
    cases hlast with
    | stderr_died error hbad =>
      obtain ⟨line, hline, hunreadable⟩ := hbad
      rw [hstderr line hline] at hunreadable
      cases hunreadable
    | exited hreads hall =>
      rw [hs.returncode.resolve_left (hnotified rfl hreads), after_exit_zero]

/-- The status was there when the generator read it, or the run did not end
as a success. -/
theorem notified_of_success (turns : List Turn) {usage : Int × Int}
    (hout : (after step (start status stdout stderr) turns).out =
      contents stdout ++ [.data (final_chunk usage), .done]) :
    Each step Notified (start status stdout stderr) turns := by
  refine each_iff.mpr fun pre t post hturns => ?_
  rintro rfl hreads hnone
  have hfollows := follows_run pre (follows_start status stdout stderr)
  obtain ⟨hended, hlast⟩ := reads_status_ends hfollows hreads
  have hnonzero : (after step (start status stdout stderr) pre).returncode ≠ some 0 := by
    rw [hnone]
    exact fun h => nomatch h
  obtain ⟨error, herror⟩ := after_exit_failure stdout stderr hnonzero
  rw [hturns, after_append, after_cons, (ended_run post hended).2, hlast, herror] at hout
  exact success_not_failure hout

/-- LAW: In every order of the events, a run of the CLI is classified as it
was exactly when each line of stdout is readable and, for a run that exits with
status 0, each line of stderr is readable and the exit is notified before the
generator reads the status. -/
theorem the_stream_is_classified_iff (status : Int) (stdout : List StdoutLine)
    (stderr : List StderrLine) (turns : List Turn)
    (h : Settled (after step (start status stdout stderr) turns)) :
    Classified stdout (after step (start status stdout stderr) turns) ↔
      (∀ line ∈ stdout, line.readable = true) ∧
        (status = 0 → (∀ line ∈ stderr, line.readable = true) ∧
          Each step Notified (start status stdout stderr) turns) := by
  have hfollows := follows_run turns (follows_start status stdout stderr)
  constructor
  · intro hc
    refine ⟨hfollows.ended_readable hc.in_time, fun hzero => ?_⟩
    obtain ⟨usage, hout⟩ := hc.success (hfollows.exits.trans hzero)
    refine ⟨?_, notified_of_success turns hout⟩
    obtain ⟨last, hends, hlast⟩ := hfollows.ends hc.in_time
    cases hlast with
    | exited returncode hcode hall => exact hall
    | stderr_died error hbad => exact (success_not_failure (hends.symm.trans hout)).elim
  · rintro ⟨hall, hsuccess⟩
    have hended := hfollows.in_time h hall
    refine ⟨fun hzero => ?_, fun hnonzero => ?_, hended⟩
    · have hstatus : status = 0 := hfollows.exits.symm.trans hzero
      obtain ⟨hstderr, hnotified⟩ := hsuccess hstatus
      subst hstatus
      exact ⟨_, success_run turns hstderr hnotified hended⟩
    · obtain ⟨last, hout, hlast⟩ := hfollows.ends hended
      rw [hfollows.exits] at hnonzero
      cases hlast with
      | stderr_died error hbad => exact ⟨_, hout⟩
      | exited returncode hcode hall =>
        have hfailure : returncode ≠ some 0 := by
          rcases hcode with rfl | rfl
          · exact fun h => nomatch h
          · exact fun h => hnonzero (Option.some.inj h)
        obtain ⟨error, herror⟩ := after_exit_failure stdout stderr hfailure
        exact ⟨error, by rw [hout, herror]⟩

end

/-- The line `{"type": "message", "text": "hi"}`. -/
def message_line : StdoutLine := .event [("type", .str "message"), ("text", .str "hi")]

def message_turns : List Turn := [.stdout, .stdout, .stderr, .exit, .client, .client]

/-- The line `{"type": []}`. -/
def unhashable_line : StdoutLine := .event [("type", .list [])]

/-- A process that exits with status 0 and writes one message, with the exit
notified before the end of the pipes is seen. -/
theorem the_stream_of_a_message_is_classified :
    Settled (after step (start 0 [message_line] []) message_turns) ∧
      Classified [message_line] (after step (start 0 [message_line] []) message_turns) := by
  have hsettled : Settled (after step (start 0 [message_line] []) message_turns) := fun t => by
    cases t with
    | stdout | stderr | exit | client | timeout => rfl
  refine ⟨hsettled, (the_stream_is_classified_iff 0 _ _ _ hsettled).mpr ⟨?_, fun _ => ⟨?_, ?_⟩⟩⟩
  · exact fun line hline => List.mem_singleton.mp hline ▸ rfl
  · exact fun line hline => nomatch hline
  · have hother : ∀ s t, t ≠ Turn.client → Notified s t := fun s t hne ht => absurd ht hne
    exact ⟨hother _ _ (by decide), hother _ _ (by decide), hother _ _ (by decide),
      hother _ _ (by decide), fun _ _ => by decide, fun _ _ => by decide, trivial⟩

/-- A process that exits with status 0 and writes nothing ends as an error when
the exit is notified after the pipes. An event whose type is a list leaves the
stream to the timeout, though all is read and the exit is there. -/
theorem a_success_ends_as_an_error :
    (Settled (after step (start 0 [] []) [.stdout, .stderr, .client, .exit]) ∧
      ¬Classified [] (after step (start 0 [] []) [.stdout, .stderr, .client, .exit])) ∧
    Settled (after step (start 0 [unhashable_line] []) [.stdout, .stderr, .exit, .timeout]) ∧
      ¬Classified [unhashable_line]
        (after step (start 0 [unhashable_line] []) [.stdout, .stderr, .exit, .timeout]) := by
  refine ⟨⟨fun t => ?_, fun h => ?_⟩, fun t => ?_, fun h => ?_⟩
  · cases t with
    | stdout | stderr | exit | client | timeout => rfl
  · obtain ⟨usage, hout⟩ := h.success rfl
    cases hout
  · cases t with
    | stdout | stderr | exit | client | timeout => rfl
  · cases h.in_time

/-! ## The stream of the proxy -/

section
variable {status : Int} {stdout : List StdoutLine} {stderr : List StderrLine}

theorem contents_events (h : ∀ line ∈ stdout, line.readable = true) :
    contents stdout = content_lines (events_of stdout) := by
  unfold contents content_lines
  rw [texts_events h]
  rfl

/-- How the proxy hears of the end of the CLI. -/
inductive EndingOf (status : Int) (stderr : List StderrLine) : Ending → Prop where
  | exited (returncode : Option Int) (h : returncode = none ∨ returncode = some status) :
      EndingOf status stderr (.exited returncode (String.join (stderr.map StderrLine.shown)))
  | raised (error : String) : EndingOf status stderr (.raised error)

theorem last_of_ending {last : List Line} (h : ∀ line ∈ stdout, line.readable = true)
    (hlast : Last status stdout stderr last) : ∃ ending, EndingOf status stderr ending ∧
      contents stdout ++ last = values (stream_codex_exec (events_of stdout) ending) := by
  cases hlast with
  | stderr_died error hbad =>
    refine ⟨.raised error, .raised error, ?_⟩
    unfold stream_codex_exec
    rw [values_append, values_yields, contents_events h]
    rfl
  | exited returncode hcode hall =>
    refine ⟨_, .exited returncode hcode, ?_⟩
    unfold stream_codex_exec after_exit
    rw [values_append, values_yields, contents_events h, texts_events h, tokens_events h]
    congr 1
    dsimp only
    split
    · rfl
    · split
      · rfl
      · rfl

/-- On lines that the reader survives, whatever the order of the events, the
client gets a stream of the proxy as it runs without a loop. -/
theorem the_stream_is_one_of_the_proxy (turns : List Turn)
    (hall : ∀ line ∈ stdout, line.readable = true)
    (h : Settled (after step (start status stdout stderr) turns)) :
    ∃ ending, EndingOf status stderr ending ∧
      (after step (start status stdout stderr) turns).out =
        values (stream_codex_exec (events_of stdout) ending) := by
  have hfollows := follows_run turns (follows_start status stdout stderr)
  obtain ⟨last, hout, hlast⟩ := hfollows.ends (hfollows.in_time h hall)
  rw [hout]
  exact last_of_ending hall hlast

end

theorem the_stream_is_one_of_the_proxy_message :
    ∃ ending, EndingOf 0 [] ending ∧
      (after step (start 0 [message_line] []) message_turns).out =
        values (stream_codex_exec (events_of [message_line]) ending) :=
  the_stream_is_one_of_the_proxy message_turns
    (fun _ hline => List.mem_singleton.mp hline ▸ rfl) fun t => by
      cases t with
      | stdout | stderr | exit | client | timeout => rfl

end dr_boz.codex_stream
