-- The files that the tools of a model open, write and offer: `read_skill_file`,
-- `send_file` and `chart_generator` of `agent/tools.py`, the tools of `llm.py`
-- that do the same for the Codex loop, and the upload of the bot. The server has
-- no symbolic links.
import DrBoz.Lib.PosixPaths
import DrBoz.Models
import DrBoz.Texts

open keyed_table posix_paths dr_boz.py

namespace dr_boz.tool_paths

/-! ## The server -/

structure Skill where
  id : Nat := 0
  name : String
  is_active : Option Bool := some true
  file_path : Option String
deriving DecidableEq

instance : Row Skill String :=
  ⟨(·.id), fun a n => { a with id := n }, fun a => some a.name, fun _ _ => rfl, fun _ _ => rfl⟩

structure Chat where
  id : Nat
  model_id : Option Nat
deriving DecidableEq

structure Model where
  id : Nat
  provider_id : Option Nat
deriving DecidableEq

structure Provider where
  id : Nat
  kind : Option String
deriving DecidableEq

/-- Why a text could not be read. -/
inductive ReadError
  | unicode_decode
  | other (exc : String)
deriving DecidableEq

/-- The files of the server and the rows that the tools read. The upload of a skill makes the
directory that its row names, so no file stands there. -/
structure Server where
  cwd : List Name
  cwd_valid : ∀ name ∈ cwd, ValidName name
  is_file : Path → Bool
  size : Path → Nat
  read_text : Path → Except ReadError String
  skills : Table Skill
  chats : List Chat
  models : List Model
  providers : List Provider
  skill_dirs : ∀ skill ∈ skills.rows, ∀ dir, skill.file_path = some dir →
    ∀ p, is_file p = true → location cwd p ≠ location cwd dir.toList

/-- The place that a path leads to. -/
def Server.place (server : Server) (p : Path) : List Name := location server.cwd p

/-! ## Reading a file of a skill -/

/-- The directory of the active skill of that name, if it has one. -/
def skill_dir (server : Server) (skill_name : String) : Option String := do
  let skill ← server.skills.first fun skill =>
    skill.name = skill_name && skill.is_active = some true
  skill.file_path.filter (· ≠ "")

/-- `read_skill_file` of the agent: the file that it opens, and its reply. -/
def read_skill_file (server : Server) (skill_name relative_path : String) :
    Option Path × String :=
  match skill_dir server skill_name with
  | none => (none, s!"Skill '{skill_name}' not found, disabled, or has no directory.")
  | some dir =>
    let root := resolve server.cwd dir.toList
    let requested := resolve server.cwd (join root relative_path.toList)
    if is_parent root requested = false ∨ server.is_file requested = false then
      (none, "File not found or path is outside the skill directory.")
    else if server.size requested > 200000 then
      (none, "File is too large to read through this tool.")
    else
      (some requested,
        match server.read_text requested with
        | .ok text => text
        | .error .unicode_decode => "File is not UTF-8 text and cannot be read through this tool."
        | .error (.other exc) => s!"Error reading skill file: {exc}")

/-- `run_read_skill_file_tool` of the Codex loop. -/
def run_read_skill_file_tool (server : Server) (skill_name relative_path : String) :
    Option Path × Except String String :=
  let skill_name := strip skill_name
  let relative_path := strip relative_path
  if skill_name = "" ∨ relative_path = "" then
    (none, .error "skill_name and relative_path are required")
  else
    match skill_dir server skill_name with
    | none => (none, .error s!"Skill '{skill_name}' not found, disabled, or has no directory.")
    | some dir =>
      let root := abspath server.cwd dir.toList
      let requested := abspath server.cwd (join root relative_path.toList)
      if commonpath root requested ≠ root ∨ server.is_file requested = false then
        (none, .error "File not found or path is outside the skill directory.")
      else if server.size requested > 200000 then
        (none, .error "File is too large to read through this tool.")
      else
        (some requested,
          match server.read_text requested with
          | .ok content => .ok content
          | .error .unicode_decode =>
            .error "File is not UTF-8 text and cannot be read through this tool."
          | .error (.other exc) => .error s!"Error reading skill file: {exc}")

/-! ## Drawing a chart -/

structure ChartArgs where
  chart_type : String
  title : String
  values : List PyFloat
  labels : List String := []
  x_label : String := ""
  y_label : String := ""
  filename : String := "chart.png"
  colors : List String := []

def CHART_TYPES : List String := ["bar", "line", "pie", "scatter", "histogram"]

/-- The library that draws: an error of the drawing, or of saving it at a path. -/
structure Plotting where
  draw : ChartArgs → Option String
  savefig : Path → Option String

/-- `output_dir`: `uploads/charts` in the directory of the server. -/
def output_dir (server : Server) : Path :=
  join (join (render 1 server.cwd) "uploads".toList) "charts".toList

/-- The name, with `.png` after it if it does not end with that. -/
def png_name (filename : String) : String :=
  if texts.ends_with filename ".png" then filename else filename ++ ".png"

/-- `chart_generator`: the file that it writes, and `file_path` with `filename`. -/
def chart_generator (server : Server) (plt : Plotting) (args : ChartArgs) :
    Option Path × Except String (Path × String) :=
  let filename := png_name args.filename
  let output_path := join (output_dir server) filename.toList
  if args.chart_type ∉ CHART_TYPES then
    (none, .error s!"Unsupported chart type: {args.chart_type}")
  else
    match plt.draw args with
    | some e => (none, .error e)
    | none =>
      match plt.savefig output_path with
      | some e => (none, .error e)
      | none => (some output_path, .ok (output_path, filename))

/-! ## Sending a file -/

/-- What came of a call to send a file. -/
inductive Sent
  | offered (storage_path message : String)
  | refused (error : String)
  | raised (exc : String)
deriving DecidableEq

def send_file (server : Server) (file_path : String) : Sent :=
  if server.is_file file_path.toList = false then .refused s!"File not found: {file_path}"
  else .offered file_path s!"File {file_path} is ready to be sent."

/-- The provider of the chat's model, where it is a Codex subscription. -/
def codex_provider (server : Server) (chat_id : Option Nat) : Option Provider := do
  let chat_id ← chat_id.filter (· ≠ 0)
  let chat ← server.chats.find? fun chat => chat.id = chat_id
  let model_id ← chat.model_id.filter (· ≠ 0)
  let model ← server.models.find? fun model => model.id = model_id
  let provider_id ← model.provider_id.filter (· ≠ 0)
  let provider ← server.providers.find? fun provider => provider.id = provider_id
  if provider.kind = some "codex_subscription" then some provider else none

/-- A relative path in a Codex chat: `run_send_file_tool` goes on to look it up below the home of
the account. -/
def looks_in_codex_home (server : Server) (chat_id : Option Nat) (file_path : String) : Bool :=
  file_path ≠ "" && isabs file_path.toList = false && (codex_provider server chat_id).isSome

/-- `run_send_file_tool`. No module has the function that it imports to find the account. -/
def run_send_file_tool (server : Server) (chat_id : Option Nat) (file_path : String) : Sent :=
  if looks_in_codex_home server chat_id file_path then
    .raised "cannot import name 'get_codex_account_for_provider' from 'app.services.codex_runtime'"
  else send_file server file_path

/-- `_maybe_upload_generated_file_to_chat`: the file that the bot opens for an offer. -/
def maybe_upload_generated_file_to_chat (server : Server) : Sent → Option Path
  | .offered storage_path _ =>
    if strip storage_path = "" then none
    else
      let abs_path := abspath server.cwd (strip storage_path).toList
      if server.is_file abs_path then some abs_path else none
  | _ => none

/-- What is offered, and what the bot uploads for it. -/
def delivered (server : Server) (sent : Sent) : List Path :=
  (match sent with
    | .offered storage_path _ => [storage_path.toList]
    | _ => []) ++ (maybe_upload_generated_file_to_chat server sent).toList

/-! ## Where the files are to be -/

/-- A call of one of the tools. -/
inductive Call
  | read_skill_file (skill_name relative_path : String)
  | run_read_skill_file_tool (skill_name relative_path : String)
  | chart_generator (args : ChartArgs)
  | send_file (file_path : String)
  | run_send_file_tool (chat_id : Option Nat) (file_path : String)

/-- The files that a call opens, writes, or has delivered. -/
def touched (server : Server) (plt : Plotting) : Call → List Path
  | .read_skill_file name path => (read_skill_file server name path).1.toList
  | .run_read_skill_file_tool name path => (run_read_skill_file_tool server name path).1.toList
  | .chart_generator args => (chart_generator server plt args).1.toList
  | .send_file path => delivered server (send_file server path)
  | .run_send_file_tool chat_id path => delivered server (run_send_file_tool server chat_id path)

/-- `uploads/charts`, from the root. -/
def charts_dir (server : Server) : List Name :=
  server.cwd ++ ["uploads".toList, "charts".toList]

/-- The directories that a call is to stay in: those of the skill of that name, the one of the
charts, or those of the user, `user_dirs`. -/
def directories (server : Server) (user_dirs : List (List Name)) : Call → List (List Name)
  | .read_skill_file name _ =>
    (skill_dir server name).toList.map fun dir => server.place dir.toList
  | .run_read_skill_file_tool name _ =>
    (skill_dir server (strip name)).toList.map fun dir => server.place dir.toList
  | .chart_generator _ => [charts_dir server]
  | .send_file _ => user_dirs
  | .run_send_file_tool _ _ => user_dirs

/-- Each file that the call touches is strictly inside of one of these directories. -/
def Contained (server : Server) (plt : Plotting) (user_dirs : List (List Name)) (call : Call) :
    Prop :=
  ∀ file ∈ touched server plt call,
    ∃ dir ∈ directories server user_dirs call, Inside dir (server.place file)

/-! ## When they are there -/

/-- From the directory of the server, the path leads into a directory of the user. -/
def LeadsToUser (server : Server) (user_dirs : List (List Name)) (file_path : String) : Prop :=
  ∃ dir ∈ user_dirs, LeadsInto server.cwd dir file_path.toList

/-- A file at the path is one of the user, and so is the one without the blanks around the path. -/
def SendsOfUser (server : Server) (user_dirs : List (List Name)) (file_path : String) : Prop :=
  server.is_file file_path.toList = true →
    LeadsToUser server user_dirs file_path ∧
      (strip file_path ≠ "" → server.is_file (abspath server.cwd (strip file_path).toList) = true →
        LeadsToUser server user_dirs (strip file_path))

/-- The condition on a call: none to read a file of a skill, the name of a chart that is drawn and
saved leads from `uploads/charts` into it, and a path to send is one of the user. -/
def Stays (server : Server) (plt : Plotting) (user_dirs : List (List Name)) : Call → Prop
  | .read_skill_file _ _ => True
  | .run_read_skill_file_tool _ _ => True
  | .chart_generator args =>
    args.chart_type ∈ CHART_TYPES → plt.draw args = none →
      plt.savefig (join (output_dir server) (png_name args.filename).toList) = none →
        LeadsInto (charts_dir server) (charts_dir server) (png_name args.filename).toList
  | .send_file path => SendsOfUser server user_dirs path
  | .run_send_file_tool chat_id path =>
    looks_in_codex_home server chat_id path = false → SendsOfUser server user_dirs path

/-! ## The reading tools -/

theorem read_skill_file_inside {server : Server} {name path : String} {file : Path}
    (h : (read_skill_file server name path).1 = some file) :
    ∃ dir, skill_dir server name = some dir ∧
      Inside (server.place dir.toList) (server.place file) := by
  unfold read_skill_file at h
  split at h
  · cases h
  · rename_i dir hdir
    refine ⟨dir, hdir, ?_⟩
    simp only at h
    split at h
    · cases h
    · rename_i hguard
      split at h
      · cases h
      · simp only [Option.some.injEq] at h
        simp only [not_or, Bool.not_eq_false] at hguard
        have hvalid := server.cwd_valid
        unfold Server.place
        rw [← h, location_resolve hvalid]
        exact (is_parent_resolve hvalid _ _).mp hguard.1

/-- The directory of a skill is the one of its row. -/
theorem skill_dir_row {server : Server} {name dir : String}
    (h : skill_dir server name = some dir) :
    ∃ skill ∈ server.skills.rows, skill.file_path = some dir := by
  unfold skill_dir at h
  simp only [Option.bind_eq_bind, Option.bind_eq_some_iff, Option.filter_eq_some_iff] at h
  obtain ⟨skill, hfirst, hpath, _⟩ := h
  exact ⟨skill, (Table.first_mem hfirst).1, hpath⟩

theorem run_read_skill_file_tool_inside {server : Server} {name path : String} {file : Path}
    (h : (run_read_skill_file_tool server name path).1 = some file) :
    ∃ dir, skill_dir server (strip name) = some dir ∧
      Inside (server.place dir.toList) (server.place file) := by
  unfold run_read_skill_file_tool at h
  simp only at h
  split at h
  · cases h
  · split at h
    · cases h
    · rename_i dir hdir
      refine ⟨dir, hdir, ?_⟩
      split at h
      · cases h
      · rename_i hguard
        split at h
        · cases h
        · simp only [Option.some.injEq] at h
          simp only [not_or, Bool.not_eq_false, ne_eq, not_not] at hguard
          obtain ⟨hcommon, hfile⟩ := hguard
          rw [h] at hcommon hfile
          have hvalid := server.cwd_valid
          have hroot := location_valid hvalid dir.toList
          have hplace := location_abspath hvalid (join (abspath server.cwd dir.toList)
            (strip path).toList)
          have hfile_place := location_valid hvalid file
          obtain ⟨n, hn⟩ := abspath_eq hvalid dir.toList
          obtain ⟨k, hk⟩ := abspath_eq hvalid (join (abspath server.cwd dir.toList)
            (strip path).toList)
          rw [h] at hk hplace
          rw [← hplace] at hk
          constructor
          · rw [hn, hk] at hcommon
            exact prefix_of_commonpath hroot hfile_place hcommon
          · obtain ⟨skill, hskill, hpath⟩ := skill_dir_row hdir
            exact server.skill_dirs skill hskill dir hpath file hfile

/-! ## The charts -/

theorem output_dir_place (server : Server) :
    server.place (output_dir server) = charts_dir server := by
  unfold Server.place output_dir charts_dir
  rw [location_join_name _ _ (by decide), location_join_name _ _ (by decide),
    location_render _ 0 server.cwd_valid, List.append_assoc]
  rfl

/-- A chart is written at its name, from `uploads/charts`. -/
theorem chart_place (server : Server) (filename : String) :
    server.place (join (output_dir server) filename.toList) =
      location (charts_dir server) filename.toList := by
  have hplace := output_dir_place server
  unfold Server.place at *
  rw [location_join, hplace]

theorem mem_chart_generator {server : Server} {plt : Plotting} {args : ChartArgs} {file : Path} :
    file ∈ (chart_generator server plt args).1.toList ↔
      args.chart_type ∈ CHART_TYPES ∧ plt.draw args = none ∧ plt.savefig file = none ∧
        file = join (output_dir server) (png_name args.filename).toList := by
  unfold chart_generator
  simp only
  split
  · rename_i htype
    simp [htype]
  · rename_i htype
    rw [not_not] at htype
    split
    · rename_i e hdraw
      simp [hdraw]
    · rename_i hdraw
      split
      · rename_i e hsave
        simp only [Option.toList_none, List.not_mem_nil, false_iff, not_and]
        rintro _ _ hnone rfl
        rw [hnone] at hsave
        cases hsave
      · rename_i hsave
        simp only [Option.toList_some, List.mem_singleton]
        constructor
        · rintro rfl
          exact ⟨htype, hdraw, hsave, rfl⟩
        · rintro ⟨_, _, _, h⟩
          exact h

theorem chart_contained_iff (server : Server) (plt : Plotting) (user_dirs : List (List Name))
    (args : ChartArgs) :
    Contained server plt user_dirs (.chart_generator args) ↔
      Stays server plt user_dirs (.chart_generator args) := by
  unfold Contained
  simp only [touched, directories, Stays, mem_chart_generator, List.mem_singleton,
    exists_eq_left, leadsInto_iff]
  constructor
  · intro h htype hdraw hsave
    have hplace := h _ ⟨htype, hdraw, hsave, rfl⟩
    rwa [chart_place] at hplace
  · rintro h file ⟨htype, hdraw, hsave, rfl⟩
    rw [chart_place]
    exact h htype hdraw hsave

/-! ## The sending tools -/

theorem mem_delivered_send_file {server : Server} {path : String} {file : Path} :
    file ∈ delivered server (send_file server path) ↔
      server.is_file path.toList = true ∧
        (file = path.toList ∨ strip path ≠ "" ∧
          server.is_file (abspath server.cwd (strip path).toList) = true ∧
            file = abspath server.cwd (strip path).toList) := by
  unfold send_file delivered
  by_cases hfile : server.is_file path.toList = false
  · rw [if_pos hfile, hfile]
    simp [maybe_upload_generated_file_to_chat]
  · rw [if_neg hfile]
    rw [Bool.not_eq_false] at hfile
    simp only [maybe_upload_generated_file_to_chat, hfile, true_and, List.mem_append,
      List.mem_singleton]
    apply or_congr_right
    by_cases hblank : strip path = ""
    · simp [hblank]
    · by_cases hupload : server.is_file (abspath server.cwd (strip path).toList) = true
      · simp [hblank, hupload]
      · simp [hblank, hupload]

theorem send_contained_iff (server : Server) (user_dirs : List (List Name)) (path : String) :
    (∀ file ∈ delivered server (send_file server path),
      ∃ dir ∈ user_dirs, Inside dir (server.place file)) ↔ SendsOfUser server user_dirs path := by
  have hupload := location_abspath server.cwd_valid (strip path).toList
  unfold SendsOfUser LeadsToUser
  simp only [mem_delivered_send_file, leadsInto_iff]
  unfold Server.place
  constructor
  · intro h hfile
    refine ⟨h _ ⟨hfile, Or.inl rfl⟩, ?_⟩
    intro hblank hthere
    have hplace := h _ ⟨hfile, Or.inr ⟨hblank, hthere, rfl⟩⟩
    rwa [hupload] at hplace
  · rintro h file ⟨hfile, hwhich⟩
    obtain ⟨hoffer, hstripped⟩ := h hfile
    rcases hwhich with hfirst | ⟨hblank, hthere, hsecond⟩
    · rw [hfirst]
      exact hoffer
    · rw [hsecond, hupload]
      exact hstripped hblank hthere

/-! ## The law -/

/-- LAW: a file of a skill that is read lies in the directory of the skill, and a chart, or a file
that is sent, lies where it is to be exactly when its path leads there: nothing else keeps it. -/
theorem a_tool_stays_in_its_directories_iff (server : Server) (plt : Plotting)
    (user_dirs : List (List Name)) (call : Call) :
    Contained server plt user_dirs call ↔ Stays server plt user_dirs call := by
  cases call with
  | read_skill_file name path =>
    refine iff_of_true ?_ trivial
    intro file hfile
    obtain ⟨dir, hdir, hinside⟩ := read_skill_file_inside (Option.mem_toList.mp hfile)
    refine ⟨_, ?_, hinside⟩
    simp [directories, hdir]
  | run_read_skill_file_tool name path =>
    refine iff_of_true ?_ trivial
    intro file hfile
    obtain ⟨dir, hdir, hinside⟩ := run_read_skill_file_tool_inside (Option.mem_toList.mp hfile)
    refine ⟨_, ?_, hinside⟩
    simp [directories, hdir]
  | chart_generator args => exact chart_contained_iff server plt user_dirs args
  | send_file path => exact send_contained_iff server user_dirs path
  | run_send_file_tool chat_id path =>
    unfold Contained Stays
    simp only [touched, directories, run_send_file_tool]
    by_cases hcodex : looks_in_codex_home server chat_id path = true
    · simp [hcodex, delivered, maybe_upload_generated_file_to_chat]
    · rw [if_neg hcodex]
      rw [Bool.not_eq_true] at hcodex
      simp only [hcodex, true_implies]
      exact send_contained_iff server user_dirs path

/-- A server with one file outside of what it serves. -/
def small_server : Server where
  cwd := ["srv".toList]
  cwd_valid := by decide +kernel
  is_file p := p = "/etc/passwd".toList
  size _ := 0
  read_text _ := .ok ""
  skills := .empty
  chats := []
  models := []
  providers := []
  skill_dirs := by
    intro skill hskill
    cases hskill

/-- A chart whose name climbs is written over a file of the server, and the file of another
directory is offered and uploaded. -/
theorem a_chart_climbs_and_a_secret_is_sent :
    (¬ ∀ args, Contained small_server ⟨fun _ => none, fun _ => none⟩ []
      (.chart_generator args)) ∧
    ¬ ∀ path, Contained small_server ⟨fun _ => none, fun _ => none⟩ [charts_dir small_server]
      (.send_file path) := by
  constructor
  · intro h
    have hchart := h ⟨"bar", "t", [1], [], "", "", "../../x.png", []⟩
      "/srv/uploads/charts/../../x.png".toList (by decide +kernel)
    revert hchart
    decide +kernel
  · intro h
    have hsend := h "/etc/passwd" "/etc/passwd".toList (by decide +kernel)
    revert hsend
    decide +kernel

end dr_boz.tool_paths
