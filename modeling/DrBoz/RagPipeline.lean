-- Law of the pipeline that indexes a document. The producer cuts the text into
-- chunks and puts them in batches on a queue of 50 places. Three workers take
-- them off, embed and store them, with up to five attempts, and report. Each
-- may fail at any time, and they take turns in any order.
import DrBoz.Lib.Machines
import DrBoz.Texts
import Mathlib.Data.List.Count

open machines dr_boz.py dr_boz.texts

namespace dr_boz.rag_pipeline

/-! ## Chunks of a text -/

def SENTENCE_ENDS : List Char := ['.', '!', '?', '؟', '。', '\n']

/-- `re.split` at the blanks that follow the end of a sentence. The first
argument is the sentence so far. -/
def split_sentences (sentence : List Char) : List Char → List String
  | [] => [String.ofList sentence]
  | c :: rest =>
    if isSpace c && SENTENCE_ENDS.any fun mark => sentence.getLast? = some mark then
      String.ofList sentence :: split_sentences [] (rest.dropWhile isSpace)
    else split_sentences (sentence ++ [c]) rest
termination_by rest => rest.length
decreasing_by
  · have := (List.dropWhile_sublist isSpace (l := rest)).length_le
    simp only [List.length_cons]
    omega
  · simp

/-- `text.split()`. -/
def words (text : String) : List String :=
  ((text.toList.splitOnP isSpace).filter (· ≠ [])).map String.ofList

def chunk_size : Nat := 800

def overlap : Nat := 200

/-- One sentence more: the chunks that are complete, and the current one. The
last 50 words of a chunk are repeated in the next one. -/
def add_sentence (state : List String × String) (sentence : String) : List String × String :=
  let (chunks, current_chunk) := state
  if current_chunk.length + sentence.length > chunk_size ∧ current_chunk ≠ "" then
    let words := words current_chunk
    let overlap_words :=
      if words.length > overlap / 4 then words.drop (words.length - overlap / 4) else []
    (chunks ++ [strip current_chunk], " ".intercalate overlap_words ++ " " ++ sentence)
  else (chunks, current_chunk ++ if current_chunk ≠ "" then " " ++ sentence else sentence)

/-- The windows of a text without a sentence, from `start` on. -/
def windows (text : List Char) (start : Nat) : List String :=
  if start < text.length then
    .ofList ((text.drop start).take chunk_size) :: windows text (start + chunk_size - overlap)
  else []
termination_by text.length - start
decreasing_by
  unfold chunk_size overlap
  omega

def _chunk_text (text : String) : List String :=
  let (chunks, current_chunk) := (split_sentences [] text.toList).foldl add_sentence ([], "")
  let chunks := if strip current_chunk ≠ "" then chunks ++ [strip current_chunk] else chunks
  let chunks := if chunks = [] then windows text.toList 0 else chunks
  chunks.filter (· ≠ "")

/-! ## Batches -/

structure Chunk where
  id : String
  text : String
  document_id : Int
  chunk_index : Nat
  pages : Option String
deriving DecidableEq, Repr

abbrev Batch := List Chunk

def batch_size : Nat := 20

def chunk (document_id : Int) (chunk_idx : Nat) (text : String) (pages : Option String) :
    Chunk where
  id := "doc_" ++ toString document_id ++ "_chunk_" ++ toString chunk_idx
  text := text
  document_id := document_id
  chunk_index := chunk_idx
  pages := pages

/-- The texts of `chunks`, by twenties, from the index `i` on. -/
def text_batches (document_id : Int) (i : Nat) (chunks : List String) : List Batch :=
  if chunks = [] then []
  else
    (chunks.take batch_size).mapIdx (fun j text => chunk document_id (i + j) text none) ::
      text_batches document_id (i + batch_size) (chunks.drop batch_size)
termination_by chunks.length
decreasing_by
  have hpos : 0 < chunks.length := List.length_pos_iff.mpr ‹_›
  simp only [List.length_drop, batch_size]
  omega

/-- A block of pages of a PDF. -/
structure Block where
  text_block : String
  start_page : Nat
  end_page : Nat

def Block.pages (block : Block) : String :=
  toString block.start_page ++ "-" ++ toString block.end_page

/-- The loop over the blocks: the batches that were put, the current one and
the number of the next chunk. -/
structure Filling where
  put : List Batch := []
  current_batch : Batch := []
  chunk_idx : Nat := 0

def add_chunk (document_id : Int) (block : Block) (state : Filling) (text : String) : Filling :=
  let current_batch :=
    state.current_batch ++ [chunk document_id state.chunk_idx text (some block.pages)]
  if current_batch.length ≥ batch_size then
    ⟨state.put ++ [current_batch], [], state.chunk_idx + 1⟩
  else ⟨state.put, current_batch, state.chunk_idx + 1⟩

def add_block (document_id : Int) (state : Filling) (block : Block) : Filling :=
  (_chunk_text block.text_block).foldl (add_chunk document_id block) state

/-- Where the text comes from: the blocks that the PDF reader yields before it
ends or raises, or the text that was read, if it could be. -/
inductive Source where
  | pdf (blocks : List Block) (error : Option String)
  | text (text : Except String String)

/-- The batches that the producer puts, and the error that it ends with. -/
def Source.batches (document_id : Int) : Source → List Batch × Option String
  | .pdf blocks error =>
    let state := blocks.foldl (add_block document_id) {}
    (if error = none ∧ state.current_batch ≠ [] then state.put ++ [state.current_batch]
      else state.put, error)
  | .text (.ok content) => (text_batches document_id 0 (_chunk_text content), none)
  | .text (.error e) => ([], some e)

/-! ## The pipeline -/

def worker_count : Nat := 3

def maxsize : Nat := 50

def max_retries : Nat := 5

structure Config where
  document_id : Int
  provider : String
  api_key : Option String
  progress_callback : Bool
deriving DecidableEq, Repr

/-- The batches are embedded first, in calls of their own, and then stored. -/
def Config.manual (cfg : Config) : Bool := cfg.provider ≠ "google" && truthyKey cfg.api_key

-- `str.lower()`, whatever it does.
variable (lower : String → String)

def is_retryable (e : String) : Bool :=
  contains_any ["rate limit", "quota", "429", "timeout", "deadline", "resource exhausted",
    "unavailable", "service unavailable"] (lower e)

/-- Where a worker waits: for the queue, or for an attempt at its batch. -/
inductive Worker where
  | gets
  | embeds (batch : Batch) (attempt : Nat)
  | adds (batch : Batch) (attempt : Nat)
  | reports (batch : Batch)
  | ended
deriving DecidableEq, Repr

/-- Where the producer waits: before the workers start, for the text, for a
place in the queue, for the queue to be done and for the workers to end. -/
inductive Producer where
  | begins
  | reads
  | puts (batches : List Batch) (error : Option String)
  | stops (left : Nat)
  | joins
  | gathers
  | finished (result : Except String Nat)

structure Pipeline where
  producer : Producer := .begins
  queue : List (Option Batch) := []
  unfinished_tasks : Nat := 0
  workers : List Worker := .replicate worker_count .gets
  chunk_counter : Nat := 0
  first_error : Option String := none
  producer_error : Option String := none
  stored : List Chunk := []

inductive Move where
  | producer
  | worker (i : Nat)
deriving DecidableEq, Repr

/-- What is raised or returned at the end. -/
def Pipeline.result (p : Pipeline) : Except String Nat :=
  match p.producer_error, p.first_error with
  | some e, _ => .error e
  | none, some e => .error e
  | none, none =>
    if p.chunk_counter = 0 then .error "No content could be extracted or indexed from the file."
    else .ok p.chunk_counter

/-- A step of the producer. The outcome is that of the calls in front of the
workers, or of the callback before the chunks. -/
def produces (cfg : Config) (source : Source) (p : Pipeline) (outcome : Except String Unit) :
    Option Pipeline :=
  match p.producer with
  | .begins =>
    match outcome with
    | .ok _ => some { p with producer := .reads }
    | .error e => some { p with producer := .finished (.error e) }
  | .reads =>
    match source, outcome, cfg.progress_callback with
    | .text (.error e), _, _ | _, .error e, true =>
      some { p with producer := .stops worker_count, producer_error := some e }
    | _, _, _ =>
      let (batches, error) := source.batches cfg.document_id
      some { p with producer := .puts batches error }
  | .puts (batch :: batches) error =>
    if p.queue.length < maxsize then
      some { p with
        producer := .puts batches error
        queue := p.queue ++ [some batch]
        unfinished_tasks := p.unfinished_tasks + 1 }
    else none
  | .puts [] error =>
    some { p with
      producer := .stops worker_count, producer_error := error.or p.producer_error }
  | .stops (left + 1) =>
    if p.queue.length < maxsize then
      some { p with
        producer := .stops left
        queue := p.queue ++ [none]
        unfinished_tasks := p.unfinished_tasks + 1 }
    else none
  | .stops 0 => some { p with producer := .joins }
  | .joins => if p.unfinished_tasks = 0 then some { p with producer := .gathers } else none
  | .gathers =>
    if ∀ worker ∈ p.workers, worker = .ended then
      some { p with producer := .finished p.result }
    else none
  | .finished _ => none

def Pipeline.turn (p : Pipeline) (i : Nat) (worker : Worker) : Pipeline :=
  { p with workers := p.workers.set i worker }

/-- `queue.task_done()`, and back to the queue. -/
def Pipeline.task_done (p : Pipeline) (i : Nat) : Pipeline :=
  { p.turn i .gets with unfinished_tasks := p.unfinished_tasks - 1 }

/-- The batch is given up. The first error is kept. -/
def Pipeline.fails (p : Pipeline) (i : Nat) (e : String) : Pipeline :=
  { p.task_done i with first_error := p.first_error.or (some e) }

/-- A step of a worker. The outcome is that of the call that it waits for. -/
def works (cfg : Config) (p : Pipeline) (i : Nat) (outcome : Except String Unit) :
    Option Pipeline :=
  match p.workers[i]? with
  | some .gets =>
    match p.queue with
    | [] => none
    | none :: queue =>
      some { p.turn i .ended with queue, unfinished_tasks := p.unfinished_tasks - 1 }
    | some batch :: queue =>
      some { p.turn i (if cfg.manual then .embeds batch 0 else .adds batch 0) with queue }
  | some (.embeds batch attempt) =>
    match outcome with
    | .ok _ => some (p.turn i (.adds batch 0))
    | .error e =>
      if is_retryable lower e ∧ attempt < max_retries - 1 then
        some (p.turn i (.embeds batch (attempt + 1)))
      else some (p.fails i e)
  | some (.adds batch attempt) =>
    match outcome with
    | .ok _ =>
      let p := { p with
        stored := p.stored ++ batch, chunk_counter := p.chunk_counter + batch.length }
      some (if cfg.progress_callback then p.turn i (.reports batch) else p.task_done i)
    | .error e =>
      if ¬cfg.manual ∧ is_retryable lower e ∧ attempt < max_retries - 1 then
        some (p.turn i (.adds batch (attempt + 1)))
      else some (p.fails i e)
  | some (.reports _) =>
    match outcome with
    | .ok _ => some (p.task_done i)
    | .error e => some (p.fails i e)
  | _ => none

def step (cfg : Config) (source : Source) (p : Pipeline) :
    Move → Except String Unit → Option Pipeline
  | .producer, outcome => produces cfg source p outcome
  | .worker i, outcome => works lower cfg p i outcome

/-! ## What is to be stored -/

/-- The texts of the chunks, with their pages. -/
def Source.texts : Source → List (String × Option String)
  | .pdf blocks _ => blocks.flatMap fun block =>
      (_chunk_text block.text_block).map fun text => (text, some block.pages)
  | .text (.ok content) => (_chunk_text content).map fun text => (text, none)
  | .text (.error _) => []

/-- The chunks with these texts, numbered from `i` on. -/
def numbered (document_id : Int) (i : Nat) : List (String × Option String) → List Chunk
  | [] => []
  | (text, pages) :: texts => chunk document_id i text pages :: numbered document_id (i + 1) texts

def Source.chunks (document_id : Int) (source : Source) : List Chunk :=
  numbered document_id 0 source.texts

/-- The pipeline comes to its end in every run. If it returns, each chunk was
stored once, and nothing else, and if it has left a chunk out it raises. -/
structure Exact (cfg : Config) (source : Source) : Prop where
  ends : Terminates (step lower cfg source) (fun p => ∃ result, p.producer = .finished result) {}
  returns : ∀ es p n, run (step lower cfg source) {} es = some p → p.producer = .finished (.ok n) →
    0 < n ∧ n = (source.chunks cfg.document_id).length ∧
      p.stored.Perm (source.chunks cfg.document_id)
  raises : ∀ es p result, run (step lower cfg source) {} es = some p →
    p.producer = .finished result → ∀ c ∈ source.chunks cfg.document_id, c ∉ p.stored →
      ∃ e, result = .error e

/-! ## The batches are the chunks -/

section
variable {document_id : Int}

theorem numbered_append (i : Nat) (texts more : List (String × Option String)) :
    numbered document_id i (texts ++ more) =
      numbered document_id i texts ++ numbered document_id (i + texts.length) more := by
  induction texts generalizing i with
  | nil => simp [numbered]
  | cons t texts ih =>
    simp only [List.cons_append, numbered, ih, List.length_cons]
    congr 3
    omega

theorem numbered_mapIdx (i : Nat) (texts : List String) :
    texts.mapIdx (fun j text => chunk document_id (i + j) text none) =
      numbered document_id i (texts.map fun text => (text, none)) := by
  induction texts generalizing i with
  | nil => rfl
  | cons t texts ih =>
    simp only [List.mapIdx_cons, List.map_cons, numbered, Nat.add_zero]
    congr 1
    rw [← ih (i + 1)]
    congr 1
    funext j text
    rw [Nat.add_right_comm, Nat.add_assoc]

theorem text_batches_flatten (i : Nat) (chunks : List String) :
    (text_batches document_id i chunks).flatten =
      numbered document_id i (chunks.map fun text => (text, none)) := by
  induction i, chunks using text_batches.induct with
  | case1 i => simp [text_batches, numbered]
  | case2 i chunks hne ih =>
    rw [text_batches, if_neg hne, List.flatten_cons, ih, numbered_mapIdx]
    conv_rhs => rw [← List.take_append_drop batch_size chunks, List.map_append, numbered_append]
    congr 1
    by_cases hfull : batch_size ≤ chunks.length
    · rw [List.length_map, List.length_take, Nat.min_eq_left hfull]
    · rw [List.drop_eq_nil_of_le (by omega)]
      rfl

/-- What the loop has seen so far. -/
def Filling.chunks (state : Filling) : List Chunk := state.put.flatten ++ state.current_batch

theorem add_chunk_chunks (document_id : Int) (block : Block) (state : Filling) (text : String) :
    (add_chunk document_id block state text).chunks =
        state.chunks ++ numbered document_id state.chunk_idx [(text, some block.pages)] ∧
      (add_chunk document_id block state text).chunk_idx = state.chunk_idx + 1 := by
  unfold add_chunk
  simp only
  split <;> simp [Filling.chunks, numbered]

theorem add_texts_chunks (document_id : Int) (block : Block) (texts : List String)
    (state : Filling) :
    (texts.foldl (add_chunk document_id block) state).chunks = state.chunks ++
        numbered document_id state.chunk_idx (texts.map fun text => (text, some block.pages)) ∧
      (texts.foldl (add_chunk document_id block) state).chunk_idx =
        state.chunk_idx + texts.length := by
  induction texts generalizing state with
  | nil => simp [numbered]
  | cons t texts ih =>
    obtain ⟨hchunks, hidx⟩ := add_chunk_chunks document_id block state t
    obtain ⟨hrest, hend⟩ := ih (add_chunk document_id block state t)
    rw [List.foldl_cons, hrest, hend, hchunks, hidx]
    refine ⟨?_, ?_⟩
    · simp [numbered]
    · rw [List.length_cons]
      omega

theorem add_blocks_chunks (document_id : Int) (blocks : List Block) (state : Filling) :
    (blocks.foldl (add_block document_id) state).chunks = state.chunks ++
      numbered document_id state.chunk_idx (Source.texts (.pdf blocks none)) := by
  induction blocks generalizing state with
  | nil => simp [Source.texts, numbered]
  | cons block blocks ih =>
    obtain ⟨hchunks, hidx⟩ := add_texts_chunks document_id block
      (_chunk_text block.text_block) state
    rw [List.foldl_cons, ih]
    simp only [add_block, hchunks, hidx, Source.texts, List.flatMap_cons, numbered_append,
      List.length_map, List.append_assoc]

/-- The batches have the chunks in their order, and all of them if the text
was read to its end. -/
theorem batches_flatten (document_id : Int) (source : Source) :
    ∃ left_out, (source.batches document_id).1.flatten ++ left_out =
      source.chunks document_id ∧ ((source.batches document_id).2 = none → left_out = []) := by
  unfold Source.chunks
  rcases source with ⟨blocks, error⟩ | (e | content)
  · have hchunks := add_blocks_chunks document_id blocks {}
    simp only [Filling.chunks, List.flatten_nil, List.nil_append] at hchunks
    change _ = numbered document_id 0 (Source.texts (.pdf blocks error)) at hchunks
    simp only [Source.batches]
    split
    · next hput => exact ⟨[], by simpa using hchunks, fun _ => rfl⟩
    · next hput =>
      refine ⟨_, hchunks, fun hnone => ?_⟩
      by_contra hne
      exact hput ⟨hnone, hne⟩
  · exact ⟨[], rfl, fun _ => rfl⟩
  · refine ⟨[], ?_, fun _ => rfl⟩
    rw [List.append_nil]
    exact text_batches_flatten 0 (_chunk_text content)

end

/-! ## What a step does -/

namespace Worker

/-- The batch that is not stored yet. -/
def carries : Worker → Option Batch
  | embeds batch _ | adds batch _ => some batch
  | _ => none

/-- It has taken a batch, and the queue waits for it. -/
def busy : Worker → Nat
  | embeds _ _ | adds _ _ | reports _ => 1
  | _ => 0

def done : Worker → Nat
  | ended => 1
  | _ => 0

/-- How many steps it may take until it is back at the queue. -/
def rank : Worker → Nat
  | embeds _ attempt => 7 + (max_retries - 1 - attempt)
  | adds _ attempt => 2 + (max_retries - 1 - attempt)
  | reports _ => 1
  | _ => 0

@[simp] theorem rank_gets : gets.rank = 0 := rfl

@[simp] theorem rank_ended : ended.rank = 0 := rfl

end Worker

/-- The steps, with what each of them finds and leaves behind. -/
inductive Steps (cfg : Config) (source : Source) (p : Pipeline) : Pipeline → Prop
  | begins (h : p.producer = .begins) : Steps cfg source p { p with producer := .reads }
  | refused (h : p.producer = .begins) (e : String) :
      Steps cfg source p { p with producer := .finished (.error e) }
  | unread (h : p.producer = .reads) (e : String) :
      Steps cfg source p { p with producer := .stops worker_count, producer_error := some e }
  | reads (h : p.producer = .reads) :
      Steps cfg source p { p with
        producer :=
          .puts (source.batches cfg.document_id).1 (source.batches cfg.document_id).2 }
  | put {batch : Batch} {batches : List Batch} {error : Option String}
      (h : p.producer = .puts (batch :: batches) error) :
      Steps cfg source p { p with
        producer := .puts batches error
        queue := p.queue ++ [some batch]
        unfinished_tasks := p.unfinished_tasks + 1 }
  | put_all {error : Option String} (h : p.producer = .puts [] error) :
      Steps cfg source p { p with
        producer := .stops worker_count, producer_error := error.or p.producer_error }
  | stop {left : Nat} (h : p.producer = .stops (left + 1)) :
      Steps cfg source p { p with
        producer := .stops left
        queue := p.queue ++ [none]
        unfinished_tasks := p.unfinished_tasks + 1 }
  | stopped (h : p.producer = .stops 0) : Steps cfg source p { p with producer := .joins }
  | joined (h : p.producer = .joins) (hdone : p.unfinished_tasks = 0) :
      Steps cfg source p { p with producer := .gathers }
  | gathered (h : p.producer = .gathers) :
      Steps cfg source p { p with producer := .finished p.result }
  | ends {i : Nat} {queue : List (Option Batch)} (h : p.workers[i]? = some .gets)
      (hqueue : p.queue = none :: queue) :
      Steps cfg source p
        { p.turn i .ended with queue, unfinished_tasks := p.unfinished_tasks - 1 }
  | takes {i : Nat} {batch : Batch} {queue : List (Option Batch)} {y : Worker}
      (h : p.workers[i]? = some .gets) (hqueue : p.queue = some batch :: queue)
      (hy : y.carries = some batch) (hrank : y.rank < 12) :
      Steps cfg source p { p.turn i y with queue }
  | goes_on {i : Nat} {batch : Batch} {x y : Worker} (h : p.workers[i]? = some x)
      (hx : x.carries = some batch) (hy : y.carries = some batch) (hrank : y.rank < x.rank) :
      Steps cfg source p (p.turn i y)
  | stores {i : Nat} {batch : Batch} {attempt : Nat}
      (h : p.workers[i]? = some (.adds batch attempt)) :
      Steps cfg source p
        { p.turn i (.reports batch) with
          stored := p.stored ++ batch, chunk_counter := p.chunk_counter + batch.length }
  | stores_silently {i : Nat} {batch : Batch} {attempt : Nat}
      (h : p.workers[i]? = some (.adds batch attempt)) :
      Steps cfg source p
        { p.task_done i with
          stored := p.stored ++ batch, chunk_counter := p.chunk_counter + batch.length }
  | reported {i : Nat} {batch : Batch} (h : p.workers[i]? = some (.reports batch)) :
      Steps cfg source p (p.task_done i)
  | fails {i : Nat} {x : Worker} (h : p.workers[i]? = some x) (hx : x.busy = 1) (e : String) :
      Steps cfg source p (p.fails i e)

section
variable {lower : String → String} {cfg : Config} {source : Source} {p q : Pipeline}
  {outcome : Except String Unit}

theorem produces_cases (h : produces cfg source p outcome = some q) : Steps cfg source p q := by
  unfold produces at h
  split at h
  · next hp =>
    split at h <;> cases h
    · exact .begins hp
    · exact .refused hp _
  · next hp =>
    split at h <;> cases h
    · exact .unread hp _
    · exact .unread hp _
    · exact .reads hp
  · next hp =>
    split at h <;> cases h
    exact .put hp
  · next hp =>
    cases h
    exact .put_all hp
  · next hp =>
    split at h <;> cases h
    exact .stop hp
  · next hp =>
    cases h
    exact .stopped hp
  · next hp =>
    split at h <;> cases h
    exact .joined hp ‹_›
  · next hp =>
    split at h <;> cases h
    exact .gathered hp
  · cases h

theorem works_cases {i : Nat} (h : works lower cfg p i outcome = some q) :
    Steps cfg source p q := by
  unfold works at h
  split at h
  · next hw =>
    split at h
    · cases h
    · next hqueue =>
      cases h
      exact .ends hw hqueue
    · next batch queue hqueue =>
      cases h
      refine .takes hw hqueue ?_ ?_
      · split <;> rfl
      · split <;> simp [Worker.rank, max_retries]
  · next batch attempt hw =>
    split at h
    · cases h
      exact .goes_on hw rfl rfl (by simp only [Worker.rank, max_retries]; omega)
    · split at h
      · next hretry =>
        cases h
        refine .goes_on hw rfl rfl ?_
        have hlt : attempt < max_retries - 1 := hretry.2
        simp only [Worker.rank]
        omega
      · cases h
        exact .fails hw rfl _
  · next batch attempt hw =>
    split at h
    · simp only [Option.some.injEq] at h
      subst h
      split
      · exact .stores hw
      · exact .stores_silently hw
    · split at h
      · next hretry =>
        cases h
        refine .goes_on hw rfl rfl ?_
        have hlt : attempt < max_retries - 1 := hretry.2.2
        simp only [Worker.rank]
        omega
      · cases h
        exact .fails hw rfl _
  · next batch hw =>
    split at h
    · cases h
      exact .reported hw
    · cases h
      exact .fails hw rfl _
  · cases h

theorem step_cases {m : Move} (h : step lower cfg source p m outcome = some q) :
    Steps cfg source p q := by
  cases m with
  | producer => exact produces_cases h
  | worker i => exact works_cases h

end

/-! ## Every run ends -/

def item_rank : Option Batch → Nat
  | some _ => 12
  | none => 1

/-- A batch costs more in front of the queue than in it, and more there than
with a worker. -/
def Producer.rank (batches : Nat) : Producer → Nat
  | .begins => 12 + 13 * batches
  | .reads => 11 + 13 * batches
  | .puts left _ => 10 + 13 * left.length
  | .stops left => 3 + 2 * left
  | .joins => 2
  | .gathers => 1
  | .finished _ => 0

def Pipeline.rank (batches : Nat) (p : Pipeline) : Nat :=
  p.producer.rank batches + total item_rank p.queue + total Worker.rank p.workers

section
variable {cfg : Config} {source : Source} {p q : Pipeline}

theorem rank_step (h : Steps cfg source p q) :
    q.rank (source.batches cfg.document_id).1.length <
      p.rank (source.batches cfg.document_id).1.length := by
  unfold Pipeline.rank
  cases h with
  | begins h | refused h e | unread h e | reads h =>
    simp only [h, Producer.rank, worker_count]
    omega
  | put h | stop h =>
    simp only [h, Producer.rank, total_append, total_cons, total_nil, item_rank, List.length_cons]
    omega
  | put_all h | stopped h | joined h hdone | gathered h =>
    simp only [h, Producer.rank, worker_count, List.length_nil]
    omega
  | ends h hqueue =>
    have hset := total_set Worker.rank h .ended
    simp only [Worker.rank_gets, Worker.rank_ended] at hset
    simp only [Pipeline.turn, hqueue, total_cons, item_rank]
    omega
  | @takes i batch queue y h hqueue hy hrank =>
    have hset := total_set Worker.rank h y
    rw [Worker.rank_gets] at hset
    simp only [Pipeline.turn, hqueue, total_cons, item_rank]
    omega
  | @goes_on i batch x y h hx hy hrank =>
    have hset := total_set Worker.rank h y
    simp only [Pipeline.turn]
    omega
  | @stores i batch attempt h =>
    have hset := total_set Worker.rank h (.reports batch)
    simp only [Worker.rank] at hset
    simp only [Pipeline.turn]
    omega
  | stores_silently h | reported h =>
    have hset := total_set Worker.rank h .gets
    simp only [Worker.rank] at hset
    simp only [Pipeline.task_done, Pipeline.turn]
    omega
  | @fails i x h hx e =>
    have hset := total_set Worker.rank h .gets
    have hpos : 0 < x.rank := by
      cases x <;> simp [Worker.busy] at hx <;> simp only [Worker.rank] <;> omega
    rw [Worker.rank_gets] at hset
    simp only [Pipeline.fails, Pipeline.task_done, Pipeline.turn]
    omega

end

/-! ## Nobody waits for ever -/

/-- The markers that the producer has not put yet. -/
def Producer.left : Producer → Nat
  | .begins | .reads | .puts _ _ => worker_count
  | .stops left => left
  | _ => 0

def Producer.is_over : Producer → Bool
  | .finished _ => true
  | _ => false

/-- The queue has batches first and markers after them. A worker ends on a
marker, and there is a marker for each. -/
structure Live (p : Pipeline) : Prop where
  size : p.workers.length = worker_count
  unfinished : p.unfinished_tasks = p.queue.length + total Worker.busy p.workers
  order : ∃ (batches : List Batch) (markers : Nat),
    p.queue = batches.map some ++ List.replicate markers none ∧
      (0 < total Worker.done p.workers → batches = []) ∧
      (p.producer.is_over = false →
        markers + total Worker.done p.workers + p.producer.left = worker_count)
  idle : p.producer = .begins ∨ p.producer = .gathers ∨ p.producer.is_over = true →
    p.unfinished_tasks = 0

theorem carries_busy {x : Worker} {batch : Batch} (h : x.carries = some batch) :
    x.busy = 1 ∧ x.done = 0 := by
  cases x <;> first | cases h; done | exact ⟨rfl, rfl⟩

theorem busy_not_done {x : Worker} (h : x.busy = 1) : x.done = 0 := by
  cases x <;> first | cases h; done | rfl

section
variable {cfg : Config} {source : Source} {p q : Pipeline}

theorem live_init : Live {} where
  size := rfl
  unfinished := rfl
  order := ⟨[], 0, rfl, fun _ => rfl, fun _ => rfl⟩
  idle := fun _ => rfl

/-- A worker that has a batch stays busy, or is done with its task. -/
theorem live_turn (h : Live p) {i : Nat} {x y : Worker} (hi : p.workers[i]? = some x)
    (hx : x.busy = 1) (hy : y.done = 0) (hproducer : q.producer = p.producer)
    (hqueue : q.queue = p.queue) (hworkers : q.workers = p.workers.set i y)
    (htasks : q.unfinished_tasks = p.unfinished_tasks - 1 + y.busy) : Live q := by
  have hbusy := total_set Worker.busy hi y
  have hends := total_set Worker.done hi y
  have hle : x.busy ≤ total Worker.busy p.workers := le_total hi
  have hunfinished := h.unfinished
  have hdone := busy_not_done hx
  have hkept : total Worker.done q.workers = total Worker.done p.workers := by
    rw [hworkers]
    omega
  refine ⟨?_, ?_, ?_, ?_⟩
  · rw [hworkers, List.length_set]
    exact h.size
  · rw [hqueue, hworkers]
    omega
  · rw [hqueue, hkept, hproducer]
    exact h.order
  · rw [hproducer]
    intro hidle
    have := h.idle hidle
    omega

/-- A worker ends on a marker: no batch is left in the queue. -/
theorem live_ends (h : Live p) {i : Nat} {queue : List (Option Batch)}
    (hi : p.workers[i]? = some .gets) (hq : p.queue = none :: queue) :
    Live { p.turn i .ended with queue, unfinished_tasks := p.unfinished_tasks - 1 } := by
  obtain ⟨batches, markers, hqueue, hended, hcount⟩ := h.order
  have hunfinished := h.unfinished
  have hbusy := total_set Worker.busy hi .ended
  have hends := total_set Worker.done hi .ended
  simp only [Worker.busy, Worker.done] at hbusy hends
  have hlength : p.queue.length = queue.length + 1 := by rw [hq, List.length_cons]
  cases batches with
  | cons batch batches =>
    rw [hq] at hqueue
    simp at hqueue
  | nil =>
    cases markers with
    | zero =>
      rw [hq] at hqueue
      cases hqueue
    | succ markers =>
      rw [hq, List.map_nil, List.nil_append, List.replicate_succ, List.cons.injEq] at hqueue
      refine ⟨?_, ?_, ⟨[], markers, hqueue.2, fun _ => rfl, fun hover => ?_⟩, fun hidle => ?_⟩
      · simp only [Pipeline.turn, List.length_set]
        exact h.size
      · simp only [Pipeline.turn]
        omega
      · have := hcount hover
        simp only [Pipeline.turn]
        omega
      · have := h.idle hidle
        simp only
        omega

/-- A worker takes a batch: it was the first of the queue. -/
theorem live_takes (h : Live p) {i : Nat} {batch : Batch} {queue : List (Option Batch)}
    {y : Worker} (hi : p.workers[i]? = some .gets) (hq : p.queue = some batch :: queue)
    (hy : y.carries = some batch) : Live { p.turn i y with queue } := by
  obtain ⟨batches, markers, hqueue, hended, hcount⟩ := h.order
  have hunfinished := h.unfinished
  obtain ⟨hybusy, hydone⟩ := carries_busy hy
  have hbusy := total_set Worker.busy hi y
  have hends := total_set Worker.done hi y
  have hgets : Worker.gets.busy = 0 ∧ Worker.gets.done = 0 := ⟨rfl, rfl⟩
  have hlength : p.queue.length = queue.length + 1 := by rw [hq, List.length_cons]
  have hkept : total Worker.done (p.workers.set i y) = total Worker.done p.workers := by omega
  cases batches with
  | nil =>
    rw [hq] at hqueue
    cases markers with
    | zero => cases hqueue
    | succ markers => simp [List.replicate_succ] at hqueue
  | cons first batches =>
    rw [hq, List.map_cons, List.cons_append, List.cons.injEq] at hqueue
    refine ⟨?_, ?_, ⟨batches, markers, hqueue.2, ?_, ?_⟩, fun hidle => ?_⟩
    · simp only [Pipeline.turn, List.length_set]
      exact h.size
    · simp only [Pipeline.turn]
      omega
    · simp only [Pipeline.turn, hkept]
      exact fun hpos => absurd (hended hpos) (List.cons_ne_nil _ _)
    · simp only [Pipeline.turn, hkept]
      exact hcount
    · have := h.idle hidle
      omega

theorem live_step (h : Live p) (hstep : Steps cfg source p q) : Live q := by
  obtain ⟨batches, markers, hqueue, hended, hcount⟩ := h.order
  have hunfinished := h.unfinished
  cases hstep with
  | begins hp =>
    rw [hp] at hcount
    exact ⟨h.size, hunfinished, ⟨batches, markers, hqueue, hended, fun _ => hcount rfl⟩,
      fun _ => h.idle (.inl hp)⟩
  | refused hp e =>
    exact ⟨h.size, hunfinished, ⟨batches, markers, hqueue, hended, fun hover => nomatch hover⟩,
      fun _ => h.idle (.inl hp)⟩
  | unread hp e | reads hp | put_all hp | stopped hp =>
    rw [hp] at hcount
    exact ⟨h.size, hunfinished, ⟨batches, markers, hqueue, hended, fun _ => hcount rfl⟩,
      by simp [Producer.is_over]⟩
  | @put batch rest error hp =>
    rw [hp] at hcount
    have hnone := hcount rfl
    simp only [Producer.left] at hnone
    obtain rfl : markers = 0 := by omega
    refine ⟨h.size, ?_, ⟨batches ++ [batch], 0, by simp [hqueue], ?_, fun _ => hnone⟩,
      by simp [Producer.is_over]⟩
    · simp only [List.length_append, List.length_singleton]
      omega
    · intro hpos
      simp only at hpos
      omega
  | @stop left hp =>
    rw [hp] at hcount
    have hleft := hcount rfl
    simp only [Producer.left] at hleft
    refine ⟨h.size, ?_, ⟨batches, markers + 1, ?_, hended, fun _ => ?_⟩,
      by simp [Producer.is_over]⟩
    · simp only [List.length_append, List.length_singleton]
      omega
    · simp only [hqueue, List.append_assoc, List.replicate_succ']
    · simp only [Producer.left]
      omega
  | joined hp hdone =>
    rw [hp] at hcount
    exact ⟨h.size, hunfinished, ⟨batches, markers, hqueue, hended, fun _ => hcount rfl⟩,
      fun _ => hdone⟩
  | gathered hp =>
    exact ⟨h.size, hunfinished, ⟨batches, markers, hqueue, hended, fun hover => nomatch hover⟩,
      fun _ => h.idle (.inr (.inl hp))⟩
  | ends hi hq => exact live_ends h hi hq
  | takes hi hq hy hrank => exact live_takes h hi hq hy
  | @goes_on i batch x y hi hx hy hrank =>
    obtain ⟨hxbusy, -⟩ := carries_busy hx
    obtain ⟨hybusy, hydone⟩ := carries_busy hy
    have hle : x.busy ≤ total Worker.busy p.workers := le_total hi
    refine live_turn h hi hxbusy hydone rfl rfl rfl ?_
    simp only [Pipeline.turn]
    omega
  | @stores i batch attempt hi =>
    have hle : 1 ≤ total Worker.busy p.workers := le_total (f := Worker.busy) hi
    refine live_turn h hi rfl rfl rfl rfl rfl ?_
    simp only [Pipeline.turn, Worker.busy]
    omega
  | stores_silently hi => exact live_turn h hi rfl rfl rfl rfl rfl rfl
  | reported hi => exact live_turn h hi rfl rfl rfl rfl rfl rfl
  | fails hi hx e => exact live_turn h hi hx rfl rfl rfl rfl rfl

theorem busy_moves (lower : String → String) {i : Nat} {x : Worker} (hi : p.workers[i]? = some x)
    (hx : x.busy = 1) : Ready (step lower cfg source) p (.worker i) := by
  intro outcome
  simp only [step, works, hi]
  cases x with
  | gets | ended => cases hx
  | embeds batch attempt | adds batch attempt =>
    cases outcome with
    | ok u => rfl
    | error e =>
      simp only
      split <;> rfl
  | reports batch => cases outcome <;> rfl

theorem waiting_moves (lower : String → String) {i : Nat} (hi : p.workers[i]? = some .gets)
    (hqueue : p.queue ≠ []) : Ready (step lower cfg source) p (.worker i) := by
  intro outcome
  simp only [step, works, hi]
  cases hq : p.queue with
  | nil => exact absurd hq hqueue
  | cons item queue => cases item <;> rfl

/-- While a task is open, some worker can move. -/
theorem some_worker_moves (lower : String → String) (h : Live p) (hopen : p.unfinished_tasks ≠ 0) :
    ∃ m, Ready (step lower cfg source) p m := by
  have hunfinished := h.unfinished
  by_cases hbusy : total Worker.busy p.workers = 0
  · obtain ⟨batches, markers, hqueue, hended, hcount⟩ := h.order
    have hnonempty : p.queue ≠ [] := by
      intro hnil
      rw [hnil, List.length_nil] at hunfinished
      omega
    have hdone : total Worker.done p.workers < worker_count := by
      by_contra hall
      have hover : p.producer.is_over = false := by
        rw [← Bool.not_eq_true]
        exact fun hover => hopen (h.idle (.inr (.inr hover)))
      have hmarkers := hcount hover
      obtain rfl := hended (by unfold worker_count at hall; omega)
      obtain rfl : markers = 0 := by omega
      exact hnonempty hqueue
    have hlt : total (fun x : Worker => x.busy + x.done) p.workers < p.workers.length := by
      rw [total_add, hbusy, h.size]
      omega
    obtain ⟨i, x, hi, hzero⟩ := total_lt_length hlt
    have hgets : x = .gets := by
      cases x <;> simp [Worker.busy, Worker.done] at hzero
      rfl
    rw [hgets] at hi
    exact ⟨.worker i, waiting_moves lower hi hnonempty⟩
  · obtain ⟨i, x, hi, hpos⟩ := total_pos (Nat.pos_of_ne_zero hbusy)
    have hx : x.busy = 1 := by
      cases x <;> simp [Worker.busy] at hpos <;> rfl
    exact ⟨.worker i, busy_moves lower hi hx⟩

/-- When the queue is done, the workers have ended. -/
theorem all_ended (h : Live p) (hp : p.producer = .gathers) :
    ∀ worker ∈ p.workers, worker = .ended := by
  have hunfinished := h.unfinished
  rw [h.idle (.inr (.inl hp))] at hunfinished
  obtain ⟨batches, markers, hqueue, -, hcount⟩ := h.order
  have hmarkers := hcount (by rw [hp]; rfl)
  have hlength : p.queue.length = batches.length + markers := by
    rw [hqueue, List.length_append, List.length_map, List.length_replicate]
  have hall : total Worker.done p.workers = p.workers.length := by
    rw [h.size, ← hmarkers, hp]
    simp only [Producer.left]
    omega
  intro worker hmem
  obtain ⟨i, hi⟩ := List.mem_iff_getElem?.mp hmem
  by_contra hne
  have hzero : worker.done = 0 := by
    cases worker <;> first | rfl | exact absurd rfl hne
  -- The others cannot make up for this one.
  have hset := total_set Worker.done hi .ended
  have hbound : ∀ l : List Worker, total Worker.done l ≤ l.length := by
    intro l
    induction l with
    | nil => exact Nat.le_refl 0
    | cons x l ih =>
      have hx : x.done ≤ 1 := by cases x <;> simp [Worker.done]
      rw [total_cons, List.length_cons]
      omega
  have hle := hbound (p.workers.set i .ended)
  rw [List.length_set] at hle
  have hended : Worker.ended.done = 1 := rfl
  omega

theorem live_moves (lower : String → String) (cfg : Config) (source : Source) (h : Live p) :
    (∃ result, p.producer = .finished result) ∨ ∃ m, Ready (step lower cfg source) p m := by
  by_cases hopen : p.unfinished_tasks = 0
  · have hroom : p.queue.length < maxsize := by
      have := h.unfinished
      unfold maxsize
      omega
    cases hp : p.producer with
    | finished result => exact .inl ⟨result, rfl⟩
    | begins =>
      refine .inr ⟨.producer, fun outcome => ?_⟩
      cases outcome <;> simp [step, produces, hp]
    | reads =>
      refine .inr ⟨.producer, fun outcome => ?_⟩
      simp only [step, produces, hp]
      split <;> rfl
    | puts batches error =>
      refine .inr ⟨.producer, fun outcome => ?_⟩
      cases batches <;> simp [step, produces, hp, hroom]
    | stops left =>
      refine .inr ⟨.producer, fun outcome => ?_⟩
      cases left <;> simp [step, produces, hp, hroom]
    | joins => exact .inr ⟨.producer, fun outcome => by simp [step, produces, hp, hopen]⟩
    | gathers =>
      refine .inr ⟨.producer, fun outcome => ?_⟩
      simp only [step, produces, hp, if_pos (all_ended h hp), Option.isSome_some]
  · exact .inr (some_worker_moves lower h hopen)

end

/-! ## Nothing gets lost in silence -/

/-- How often a chunk is in what the worker has not stored yet. -/
def Worker.holds (c : Chunk) (worker : Worker) : Nat := (worker.carries.getD []).count c

def item_count (c : Chunk) (item : Option Batch) : Nat := (item.getD []).count c

/-- What the producer has not put yet. -/
def Producer.remaining (wanted : List Chunk) : Producer → List Chunk
  | .begins | .reads => wanted
  | .puts batches _ => batches.flatten
  | _ => []

/-- An error is noted, or on its way. -/
def Pipeline.failed (p : Pipeline) : Prop :=
  p.first_error.isSome ∨ p.producer_error.isSome ∨ match p.producer with
    | .puts _ error => error.isSome
    | .finished (.error _) => True
    | _ => False

/-- Where a chunk is. -/
def Pipeline.found (wanted : List Chunk) (p : Pipeline) (c : Chunk) : Nat :=
  p.stored.count c + total (Worker.holds c) p.workers + total (item_count c) p.queue +
    (p.producer.remaining wanted).count c

/-- Each chunk is stored, with a worker, in the queue or with the producer, or
it is lost and there is an error. -/
structure Kept (wanted : List Chunk) (p : Pipeline) : Prop where
  counter : p.chunk_counter = p.stored.length
  chunks : ∃ lost : List Chunk, (∀ c, p.found wanted c + lost.count c = wanted.count c) ∧
    (¬p.failed → lost = [])
  result : ∀ n, p.producer = .finished (.ok n) → p.result = .ok n

section
variable {wanted : List Chunk} {cfg : Config} {source : Source} {p q : Pipeline}

theorem kept_init (wanted : List Chunk) : Kept wanted {} where
  counter := rfl
  chunks := ⟨[], fun c => by simp [Pipeline.found, Worker.holds, Producer.remaining,
    Worker.carries, worker_count, List.replicate, total], fun _ => rfl⟩
  result := fun _ h => nomatch h

/-- Where a step leaves chunks out, there is an error after it. -/
theorem kept_of_found (h : Kept wanted p) (left_out : List Chunk)
    (hcounter : q.chunk_counter = q.stored.length)
    (hfound : ∀ c, q.found wanted c + left_out.count c = p.found wanted c)
    (hfailed : ¬q.failed → ¬p.failed ∧ left_out = [])
    (hresult : ∀ n, q.producer = .finished (.ok n) → q.result = .ok n) : Kept wanted q := by
  obtain ⟨lost, hcount, hlost⟩ := h.chunks
  refine ⟨hcounter, ⟨left_out ++ lost, fun c => ?_, fun hq => ?_⟩, hresult⟩
  · rw [List.count_append, ← hcount c, ← hfound c]
    omega
  · obtain ⟨hp, rfl⟩ := hfailed hq
    rw [hlost hp, List.append_nil]

/-- The same for a turn of a worker. -/
theorem kept_of_turn (h : Kept wanted p) {i : Nat} {x y : Worker} (hi : p.workers[i]? = some x)
    (hworkers : q.workers = p.workers.set i y) (hproducer : q.producer = p.producer)
    (left_out : List Chunk) (hcounter : q.chunk_counter = q.stored.length)
    (hfound : ∀ c, q.stored.count c + y.holds c + total (item_count c) q.queue +
      left_out.count c = p.stored.count c + x.holds c + total (item_count c) p.queue)
    (hfailed : ¬q.failed → ¬p.failed ∧ left_out = [])
    (hresult : ∀ n, p.producer = .finished (.ok n) → q.result = p.result) : Kept wanted q := by
  refine kept_of_found h left_out hcounter (fun c => ?_) hfailed fun n hn => ?_
  · have hset := total_set (Worker.holds c) hi y
    have := hfound c
    unfold Pipeline.found
    rw [hworkers, hproducer]
    omega
  · rw [hproducer] at hn
    rw [hresult n hn, h.result n hn]

theorem busy_not_over (h : Live p) {i : Nat} {x : Worker} (hi : p.workers[i]? = some x)
    (hx : x.busy = 1) (result : Except String Nat) : p.producer ≠ .finished result := by
  intro hp
  have hunfinished := h.unfinished
  rw [h.idle (.inr (.inr (by rw [hp]; rfl)))] at hunfinished
  have hle : x.busy ≤ total Worker.busy p.workers := le_total hi
  omega

theorem holds_of_carries {x : Worker} {batch : Batch} (h : x.carries = some batch) (c : Chunk) :
    x.holds c = batch.count c := by
  unfold Worker.holds
  rw [h]
  rfl

theorem kept_step (hwanted : wanted = source.chunks cfg.document_id) (hlive : Live p)
    (h : Kept wanted p) (hstep : Steps cfg source p q) : Kept wanted q := by
  cases hstep with
  | begins hp =>
    refine kept_of_found h [] h.counter (fun c => ?_) (fun hq => ⟨?_, rfl⟩) fun n hn => nomatch hn
    · simp [Pipeline.found, hp, Producer.remaining]
    · simpa [Pipeline.failed, hp] using hq
  | refused hp e =>
    refine kept_of_found h wanted h.counter (fun c => ?_) (fun hq => ?_) fun n hn => nomatch hn
    · simp [Pipeline.found, hp, Producer.remaining]
    · simp [Pipeline.failed] at hq
  | unread hp e =>
    refine kept_of_found h wanted h.counter (fun c => ?_) (fun hq => ?_) fun n hn => nomatch hn
    · simp [Pipeline.found, hp, Producer.remaining]
    · simp [Pipeline.failed] at hq
  | reads hp =>
    obtain ⟨left_out, hflatten, hnone⟩ := batches_flatten cfg.document_id source
    refine kept_of_found h left_out h.counter (fun c => ?_) (fun hq => ?_) fun n hn => nomatch hn
    · simp only [Pipeline.found, hp, Producer.remaining, hwanted, ← hflatten, List.count_append]
      omega
    · simp only [Pipeline.failed, not_or, Bool.not_eq_true, Option.isSome_eq_false_iff,
        Option.isNone_iff_eq_none] at hq
      refine ⟨?_, hnone hq.2.2⟩
      simp [Pipeline.failed, hp, hq.1, hq.2.1]
  | put hp =>
    refine kept_of_found h [] h.counter (fun c => ?_) (fun hq => ⟨?_, rfl⟩) fun n hn => nomatch hn
    · simp only [Pipeline.found, hp, Producer.remaining, total_append, total_cons, total_nil,
        item_count, Option.getD_some, List.flatten_cons, List.count_append, List.count_nil]
      omega
    · simpa [Pipeline.failed, hp] using hq
  | @put_all error hp =>
    refine kept_of_found h [] h.counter (fun c => ?_) (fun hq => ⟨?_, rfl⟩) fun n hn => nomatch hn
    · simp [Pipeline.found, hp, Producer.remaining]
    · simp only [Pipeline.failed, or_false, hp] at hq ⊢
      cases error <;> simp_all
  | stop hp =>
    refine kept_of_found h [] h.counter (fun c => ?_) (fun hq => ⟨?_, rfl⟩) fun n hn => nomatch hn
    · simp [Pipeline.found, hp, Producer.remaining, item_count]
    · simpa [Pipeline.failed, hp] using hq
  | stopped hp | joined hp hdone =>
    refine kept_of_found h [] h.counter (fun c => ?_) (fun hq => ⟨?_, rfl⟩) fun n hn => nomatch hn
    · simp [Pipeline.found, hp, Producer.remaining]
    · simpa [Pipeline.failed, hp] using hq
  | gathered hp =>
    refine kept_of_found h [] h.counter (fun c => ?_) (fun hq => ⟨?_, rfl⟩) fun n hn => ?_
    · simp [Pipeline.found, hp, Producer.remaining]
    · simp only [Pipeline.failed, not_or] at hq
      simpa [Pipeline.failed, hp] using And.intro hq.1 hq.2.1
    · exact Producer.finished.inj hn
  | ends hi hq =>
    refine kept_of_turn h hi rfl rfl [] h.counter (fun c => ?_) (fun hfailed => ⟨hfailed, rfl⟩)
      fun _ _ => rfl
    simp [hq, item_count, Pipeline.turn, Worker.holds, Worker.carries]
  | takes hi hq hy hrank =>
    refine kept_of_turn h hi rfl rfl [] h.counter (fun c => ?_) (fun hfailed => ⟨hfailed, rfl⟩)
      fun _ _ => rfl
    rw [holds_of_carries hy]
    simp only [hq, item_count, Pipeline.turn, Worker.holds, Worker.carries, total_cons,
      Option.getD_some, Option.getD_none, List.count_nil]
    omega
  | goes_on hi hx hy hrank =>
    refine kept_of_turn h hi rfl rfl [] h.counter (fun c => ?_) (fun hfailed => ⟨hfailed, rfl⟩)
      fun _ _ => rfl
    rw [holds_of_carries hx, holds_of_carries hy]
    rfl
  | stores hi | stores_silently hi =>
    refine kept_of_turn h hi rfl rfl [] ?_ (fun c => ?_) (fun hfailed => ⟨hfailed, rfl⟩)
      fun n hn => absurd hn (busy_not_over hlive hi rfl _)
    · simp [h.counter]
    · simp [Worker.holds, Worker.carries, Pipeline.turn, Pipeline.task_done]
  | reported hi =>
    refine kept_of_turn h hi rfl rfl [] h.counter (fun c => ?_) (fun hfailed => ⟨hfailed, rfl⟩)
      fun _ _ => rfl
    rfl
  | @fails i x hi hx e =>
    refine kept_of_turn h hi rfl rfl (x.carries.getD []) h.counter (fun c => ?_)
      (fun hfailed => ?_) fun n hn => absurd hn (busy_not_over hlive hi hx _)
    · simp [Worker.holds, Worker.carries, Pipeline.fails, Pipeline.task_done, Pipeline.turn]
      omega
    · exact absurd (.inl (by cases p.first_error <;> simp [Pipeline.fails])) hfailed

/-- After a return, all that was wanted is stored. -/
theorem stored_of_returned (hlive : Live p) (h : Kept wanted p) {n : Nat}
    (hp : p.producer = .finished (.ok n)) : 0 < n ∧ n = wanted.length ∧ p.stored.Perm wanted := by
  have hresult := h.result n hp
  have hunfinished := hlive.unfinished
  rw [hlive.idle (.inr (.inr (by rw [hp]; rfl)))] at hunfinished
  have hqueue : p.queue = [] := List.length_eq_zero_iff.mp (by omega)
  obtain ⟨hnone, hcounter⟩ : ¬p.failed ∧ (p.chunk_counter ≠ 0 ∧ p.chunk_counter = n) := by
    unfold Pipeline.result at hresult
    split at hresult
    · cases hresult
    · cases hresult
    · next hproducer hfirst =>
      split at hresult
      · cases hresult
      · next hne =>
        cases hresult
        exact ⟨by simp [Pipeline.failed, hproducer, hfirst, hp], hne, rfl⟩
  obtain ⟨lost, hcount, hlost⟩ := h.chunks
  obtain rfl := hlost hnone
  have hperm : p.stored.Perm wanted := by
    rw [List.perm_iff_count]
    intro c
    have hholds : total (Worker.holds c) p.workers = 0 := by
      by_contra hne
      obtain ⟨i, x, hi, hpos⟩ := total_pos (Nat.pos_of_ne_zero hne)
      have hle : x.busy ≤ total Worker.busy p.workers := le_total hi
      cases x <;> simp [Worker.holds, Worker.carries] at hpos <;>
        simp only [Worker.busy] at hle <;> omega
    have := hcount c
    simpa [Pipeline.found, hqueue, hp, Producer.remaining, hholds] using this
  have hlength := hperm.length_eq
  have := h.counter
  exact ⟨by omega, by omega, hperm⟩

end

/-! ## The law -/

/-- LAW: for every text, every order of the steps and every failure, indexing
ends. If it returns `n`, the chunks numbered from 0 to `n - 1` were stored once
each and nothing else was, and if it has left out a chunk it raises. -/
theorem indexing_is_exact (lower : String → String) (cfg : Config) (source : Source) :
    Exact lower cfg source := by
  have hkeeps : ∀ p m o q, step lower cfg source p m o = some q →
      Live p ∧ Kept (source.chunks cfg.document_id) p →
        Live q ∧ Kept (source.chunks cfg.document_id) q :=
    fun p m o q hstep h =>
      ⟨live_step h.1 (step_cases hstep), kept_step rfl h.1 h.2 (step_cases hstep)⟩
  have hinit : Live {} ∧ Kept (source.chunks cfg.document_id) {} := ⟨live_init, kept_init _⟩
  have hreturns : ∀ es p n, run (step lower cfg source) {} es = some p →
      p.producer = .finished (.ok n) → 0 < n ∧ n = (source.chunks cfg.document_id).length ∧
        p.stored.Perm (source.chunks cfg.document_id) := by
    intro es p n hrun hp
    obtain ⟨hlive, hkept⟩ := run_keeps hkeeps hrun hinit
    exact stored_of_returned hlive hkept hp
  refine ⟨?_, hreturns, ?_⟩
  · exact terminates_of_rank (Pipeline.rank (source.batches cfg.document_id).1.length)
      (fun p m o q hstep => rank_step (step_cases hstep)) hkeeps
      (fun p h => live_moves lower cfg source h.1) hinit
  · intro es p result hrun hp c hc hmissing
    cases result with
    | error e => exact ⟨e, rfl⟩
    | ok n => exact absurd ((hreturns es p n hrun hp).2.2.mem_iff.mpr hc) hmissing

end dr_boz.rag_pipeline
