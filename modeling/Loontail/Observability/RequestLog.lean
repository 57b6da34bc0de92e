import Loontail.Core.Models
import Loontail.Core.Paging
import Loontail.Core.Text
import Mathlib.Data.List.Basic
import Mathlib.Data.Prod.Lex

/-! # Records of requests

The request path puts records into a channel. The writer takes them out again, gathers them
for a while and passes them on as batches. -/

namespace Loontail.Observability

open Relational Text

structure RequestLog where
  ts : Timestamp
  method : String
  path : String
  status : Int
  latencyMs : Int
  userId : Option Uuid
  authKind : String
  ip : Option String
  userAgent : Option String
  bytesOut : Option Int
  deriving DecidableEq, Repr

/-- A row of `request_logs`. -/
structure StoredRequest extends RequestLog where
  id : Int
  deriving DecidableEq, Repr

/-! ## The list

The administrators see the records that the filters select, the latest first, in pages of 50. -/

/-- `ORDER BY ts DESC, id DESC`. -/
def StoredRequest.recency (row : StoredRequest) : Lex (Timestamp × Int) := toLex (-row.ts, -row.id)

structure RequestLogQuery where
  since : Option Timestamp
  untilTs : Option Timestamp
  method : Option String
  path : Option String
  status : Option Int
  page : Option Int64
  deriving DecidableEq

/-- `path LIKE $4`, for the pattern that the path of a query is made into. -/
def pathLike (path : String) (row : StoredRequest) : Bool :=
  like (path ++ "%").toList row.path.toList

/-- The filters shared by the count and the page. One that is absent selects everything. -/
def RequestLogQuery.filter (query : RequestLogQuery) (row : StoredRequest) : Bool :=
  query.since.all (fun first => decide (first ≤ row.ts)) &&
    query.untilTs.all (fun last => decide (row.ts ≤ last)) &&
    query.method.all (fun method => decide (row.method = method)) &&
    query.path.all (fun path => pathLike path row) &&
    query.status.all fun status => decide (row.status = status)

def RequestLogQuery.selected (query : RequestLogQuery) (rows : List StoredRequest) :
    List StoredRequest := rows.filter query.filter

def requestPageSize : Int64 := 50

def requestOffset (page : Int64) : Int64 := pageOffset requestPageSize page

def listRequests (query : RequestLogQuery) (rows : List StoredRequest)
    (arrangement : Arrangement StoredRequest.recency) : Option (Listing StoredRequest) :=
  listPage requestPageSize
    (fun total => max ((total + requestPageSize - 1) / requestPageSize) 1)
    (query.selected rows) arrangement (query.page.getD 1)

/-! ## The writer -/

def channelCapacity : Nat := 4096

def batchMax : Nat := 256

/-- Where the loop is: before the first record of a batch, between its records, behind its end. -/
inductive Phase where
  | waiting
  | filling
  | stopped
  deriving DecidableEq, Repr

/-- `passed` are the arguments of `insert_batch` so far. `accepted` and `received` are what was put
into the channel and what was taken out. -/
structure Writer where
  phase : Phase
  channel : List RequestLog
  closed : Bool
  expired : Bool
  batch : List RequestLog
  passed : List (List RequestLog)
  accepted : List RequestLog
  received : List RequestLog
  deriving DecidableEq

/-- The first three come from outside. The last two are what the loop does when it is polled: it
takes the channel, or it takes the timer. -/
inductive WriterEvent where
  | record (log : RequestLog)
  | close
  | expire
  | receive
  | linger
  deriving DecidableEq

namespace Writer

def start : Writer := ⟨.waiting, [], false, false, [], [], [], []⟩

/-- A failure of the insertion is logged and the batch cleared all the same. -/
def flush (writer : Writer) : Writer :=
  { writer with phase := .waiting, batch := [], passed := writer.passed ++ [writer.batch] }

/-- `while batch.len() < BATCH_MAX`, and what follows it. -/
def fill (writer : Writer) : Writer :=
  if writer.batch.length < batchMax then { writer with phase := .filling } else writer.flush

def push (log : RequestLog) (rest : List RequestLog) (writer : Writer) : Writer :=
  fill { writer with
    channel := rest
    batch := writer.batch ++ [log]
    received := writer.received ++ [log] }

/-- What cannot happen changes nothing: a record without a sender or without room, a timer that does
not run, an answer of the channel or the timer that is not there. -/
def step (writer : Writer) : WriterEvent → Writer
  | .record log =>
      if writer.closed || channelCapacity ≤ writer.channel.length then writer
      else { writer with channel := writer.channel ++ [log], accepted := writer.accepted ++ [log] }
  | .close => { writer with closed := true }
  | .expire => if writer.phase = .filling then { writer with expired := true } else writer
  | .receive =>
      match writer.phase, writer.channel with
      | .waiting, log :: rest => push log rest { writer with expired := false }
      | .waiting, [] => if writer.closed then { writer with phase := .stopped } else writer
      | .filling, log :: rest => push log rest writer
      | .filling, [] => if writer.closed then writer.flush else writer
      | .stopped, _ => writer
  | .linger => if writer.phase = .filling && writer.expired then writer.flush else writer

def run (events : List WriterEvent) : Writer := events.foldl step start

/-! ### What every step keeps -/

structure Conserved (writer : Writer) : Prop where
  taken : writer.passed.flatten ++ writer.batch = writer.received
  kept : writer.received ++ writer.channel = writer.accepted
  sizes : ∀ batch ∈ writer.passed, 1 ≤ batch.length ∧ batch.length ≤ batchMax
  empty : writer.phase ≠ .filling → writer.batch = []
  short : writer.phase = .filling → 1 ≤ writer.batch.length ∧ writer.batch.length < batchMax
  drained : writer.phase = .stopped → writer.closed = true ∧ writer.channel = []

theorem start_conserved : start.Conserved where
  taken := rfl
  kept := rfl
  sizes := nofun
  empty _ := rfl
  short := nofun
  drained := nofun

section Steps

variable {writer : Writer} (taken : writer.passed.flatten ++ writer.batch = writer.received)
  (kept : writer.received ++ writer.channel = writer.accepted)
  (sizes : ∀ batch ∈ writer.passed, 1 ≤ batch.length ∧ batch.length ≤ batchMax)
  (present : 1 ≤ writer.batch.length) (fits : writer.batch.length ≤ batchMax)
include taken kept sizes present fits

theorem flush_conserved : writer.flush.Conserved where
  taken := by
    simp only [flush, List.flatten_append, List.flatten_singleton, List.append_nil]
    exact taken
  kept := kept
  sizes := List.forall_mem_append.mpr ⟨sizes, List.forall_mem_singleton.mpr ⟨present, fits⟩⟩
  empty _ := rfl
  short := nofun
  drained := nofun

theorem fill_conserved : writer.fill.Conserved := by
  unfold fill
  split
  · rename_i short
    exact ⟨taken, kept, sizes, fun filling => absurd rfl filling, fun _ => ⟨present, short⟩, nofun⟩
  · exact flush_conserved taken kept sizes present fits

end Steps

theorem Conserved.push {writer : Writer} (conserved : writer.Conserved) {log : RequestLog}
    {rest : List RequestLog} (channel : writer.channel = log :: rest)
    (fits : writer.batch.length < batchMax) : (push log rest writer).Conserved := by
  refine fill_conserved ?_ ?_ conserved.sizes ?_ ?_
  · exact (List.append_assoc _ _ _).symm.trans (congrArg (· ++ [log]) conserved.taken)
  · have kept := conserved.kept
    rw [channel] at kept
    exact (List.append_assoc _ _ _).trans kept
  · rw [List.length_append]
    exact Nat.le_add_left 1 _
  · rw [List.length_append]
    exact fits

theorem receive_cases (writer : Writer) :
    (writer.step .receive = writer ∧ (writer.closed = false ∨ writer.phase = .stopped)) ∨
    (writer.channel = [] ∧ writer.closed = true ∧ writer.phase = .waiting ∧
      writer.step .receive = { writer with phase := .stopped }) ∨
    (writer.channel = [] ∧ writer.phase = .filling ∧ writer.step .receive = writer.flush) ∨
    ∃ log rest, writer.channel = log :: rest ∧
      (writer.phase = .waiting ∧
        writer.step .receive = Writer.push log rest { writer with expired := false } ∨
      writer.phase = .filling ∧ writer.step .receive = Writer.push log rest writer) := by
  rcases phase : writer.phase with _ | _ | _
  · rcases channel : writer.channel with _ | ⟨log, rest⟩
    · cases closed : writer.closed with
      | false => exact .inl ⟨by simp [Writer.step, phase, channel, closed], .inl rfl⟩
      | true => exact .inr (.inl ⟨rfl, rfl, rfl, by simp [Writer.step, phase, channel, closed]⟩)
    · exact .inr (.inr (.inr ⟨log, rest, rfl,
        .inl ⟨rfl, by simp [Writer.step, phase, channel]⟩⟩))
  · rcases channel : writer.channel with _ | ⟨log, rest⟩
    · cases closed : writer.closed with
      | false => exact .inl ⟨by simp [Writer.step, phase, channel, closed], .inl rfl⟩
      | true =>
          exact .inr (.inr (.inl ⟨rfl, rfl, by simp [Writer.step, phase, channel, closed]⟩))
    · exact .inr (.inr (.inr ⟨log, rest, rfl,
        .inr ⟨rfl, by simp [Writer.step, phase, channel]⟩⟩))
  · exact .inl ⟨by simp [Writer.step, phase], .inr rfl⟩

theorem Conserved.step {writer : Writer} (conserved : writer.Conserved) (event : WriterEvent) :
    (writer.step event).Conserved := by
  cases event with
  | record log =>
      simp only [Writer.step]
      split
      · exact conserved
      · rename_i possible
        simp only [Bool.or_eq_true, not_or] at possible
        refine ⟨conserved.taken, ?_, conserved.sizes, conserved.empty, conserved.short, ?_⟩
        · exact (List.append_assoc _ _ _).symm.trans (congrArg (· ++ [log]) conserved.kept)
        · intro stopped
          exact absurd (conserved.drained stopped).1 possible.1
  | close =>
      exact ⟨conserved.taken, conserved.kept, conserved.sizes, conserved.empty, conserved.short,
        fun stopped => ⟨rfl, (conserved.drained stopped).2⟩⟩
  | expire =>
      simp only [Writer.step]
      split
      · exact ⟨conserved.taken, conserved.kept, conserved.sizes, conserved.empty, conserved.short,
          conserved.drained⟩
      · exact conserved
  | receive =>
      rcases receive_cases writer with ⟨same, -⟩ | ⟨channel, closed, waiting, stops⟩ |
          ⟨channel, filling, flushes⟩ | ⟨log, rest, channel, ⟨waiting, pushes⟩ | ⟨filling, pushes⟩⟩
      · rwa [same]
      · rw [stops]
        have empty : writer.batch = [] := conserved.empty (by rw [waiting]; decide)
        exact ⟨conserved.taken, conserved.kept, conserved.sizes, fun _ => empty, nofun,
          fun _ => ⟨closed, channel⟩⟩
      · rw [flushes]
        obtain ⟨present, fits⟩ := conserved.short filling
        exact flush_conserved conserved.taken conserved.kept conserved.sizes present
          (Nat.le_of_lt fits)
      · rw [pushes]
        have fresh : ({ writer with expired := false } : Writer).Conserved :=
          ⟨conserved.taken, conserved.kept, conserved.sizes, conserved.empty, conserved.short,
            conserved.drained⟩
        refine fresh.push channel ?_
        rw [conserved.empty (by rw [waiting]; decide)]
        decide
      · rw [pushes]
        exact conserved.push channel (conserved.short filling).2
  | linger =>
      simp only [Writer.step]
      split
      · rename_i elapsed
        rw [Bool.and_eq_true, decide_eq_true_eq] at elapsed
        obtain ⟨present, fits⟩ := conserved.short elapsed.1
        exact flush_conserved conserved.taken conserved.kept conserved.sizes present
          (Nat.le_of_lt fits)
      · exact conserved

theorem run_conserved (events : List WriterEvent) : (run events).Conserved := by
  unfold run
  generalize start_conserved = conserved
  generalize start = writer at conserved ⊢
  induction events generalizing writer with
  | nil => exact conserved
  | cons event rest induction => exact induction _ (conserved.step event)

/-! ### After the close -/

def remaining (writer : Writer) : Nat :=
  2 * writer.channel.length +
    match writer.phase with
    | .waiting => 1
    | .filling => 2
    | .stopped => 0

theorem remaining_push_le (log : RequestLog) (rest : List RequestLog) (writer : Writer) :
    (push log rest writer).remaining ≤ 2 * rest.length + 2 ∧
      (push log rest writer).closed = writer.closed := by
  unfold push fill
  split
  · exact ⟨Nat.le_refl _, rfl⟩
  · exact ⟨Nat.le_succ _, rfl⟩

theorem remaining_receive {writer : Writer} (closed : writer.closed = true)
    (conserved : writer.Conserved) :
    (writer.step .receive).closed = true ∧
      (writer.step .receive).remaining ≤ writer.remaining - 1 := by
  rcases receive_cases writer with ⟨same, still | stopped⟩ | ⟨channel, -, waiting, stops⟩ |
      ⟨channel, filling, flushes⟩ | ⟨log, rest, channel, ⟨waiting, pushes⟩ | ⟨filling, pushes⟩⟩
  · exact absurd (still.symm.trans closed) Bool.false_ne_true
  · rw [same]
    refine ⟨closed, ?_⟩
    simp [remaining, stopped, (conserved.drained stopped).2]
  · rw [stops]
    refine ⟨closed, ?_⟩
    simp [remaining, channel]
  · rw [flushes]
    refine ⟨closed, ?_⟩
    simp [remaining, flush, channel, filling]
  · obtain ⟨less, kept⟩ := remaining_push_le log rest { writer with expired := false }
    rw [pushes]
    refine ⟨kept.trans closed, Nat.le_trans less ?_⟩
    simp only [remaining, waiting, channel, List.length_cons]
    omega
  · obtain ⟨less, kept⟩ := remaining_push_le log rest writer
    rw [pushes]
    refine ⟨kept.trans closed, Nat.le_trans less ?_⟩
    simp only [remaining, filling, channel, List.length_cons]
    omega

theorem accepted_receive (writer : Writer) :
    (writer.step .receive).accepted = writer.accepted := by
  have pushed : ∀ (log : RequestLog) (rest : List RequestLog) (writer : Writer),
      (push log rest writer).accepted = writer.accepted := by
    intro log rest writer
    unfold push fill
    split <;> rfl
  rcases receive_cases writer with ⟨same, -⟩ | ⟨-, -, -, stops⟩ | ⟨-, -, flushes⟩ |
      ⟨log, rest, -, ⟨-, pushes⟩ | ⟨-, pushes⟩⟩
  · rw [same]
  · rw [stops]
  · rw [flushes]
    rfl
  · rw [pushes]
    exact pushed _ _ _
  · rw [pushes]
    exact pushed _ _ _

theorem accepted_receives (count : Nat) (writer : Writer) :
    ((List.replicate count WriterEvent.receive).foldl step writer).accepted =
      writer.accepted := by
  induction count generalizing writer with
  | zero => rfl
  | succ count induction => exact (induction _).trans (accepted_receive writer)

theorem stopped_of_receives {writer : Writer} (closed : writer.closed = true)
    (conserved : writer.Conserved) {count : Nat} (enough : writer.remaining ≤ count) :
    ((List.replicate count WriterEvent.receive).foldl step writer).phase = .stopped := by
  induction count generalizing writer with
  | zero =>
      unfold remaining at enough
      rcases phase : writer.phase with _ | _ | _
      · simp [phase] at enough
      · simp [phase] at enough
      · exact phase
  | succ count induction =>
      obtain ⟨kept, less⟩ := remaining_receive closed conserved
      exact induction kept (conserved.step .receive) (by omega)

end Writer

/-! ## The insertion of a batch

One statement inserts all records. Its placeholders are numbered by row and column, and the values
are bound record by record. -/

inductive Bound where
  | timestamptz (value : Timestamp)
  | text (value : String)
  | nullableText (value : Option String)
  | smallint (value : Int)
  | integer (value : Int)
  | nullableUuid (value : Option Uuid)
  | nullableBigint (value : Option Int)
  deriving DecidableEq

def cols : Nat := 10

def insertHeader : String :=
  "INSERT INTO request_logs " ++
    "(ts, method, path, status, latency_ms, user_id, auth_kind, ip, user_agent, bytes_out) VALUES "

def insertSql (rows : Nat) : String :=
  (List.range rows).foldl
    (fun sql row =>
      let sql := if 0 < row then sql ++ "," else sql
      let base := row * cols
      let sql := sql ++ "("
      let sql := (List.range cols).foldl
        (fun sql col =>
          let sql := if 0 < col then sql ++ "," else sql
          sql ++ "$" ++ toString (base + col + 1))
        sql
      sql ++ ")")
    insertHeader

def RequestLog.bound (log : RequestLog) : List Bound :=
  [.timestamptz log.ts, .text log.method, .text log.path, .smallint log.status,
    .integer log.latencyMs, .nullableUuid log.userId, .text log.authKind, .nullableText log.ip,
    .nullableText log.userAgent, .nullableBigint log.bytesOut]

def binds (batch : List RequestLog) : List Bound := batch.flatMap RequestLog.bound

def insertBatch (batch : List RequestLog) : Option (String × List Bound) :=
  if batch.isEmpty then none else some (insertSql batch.length, binds batch)

/-! ## What the statement says -/

structure Insertion where
  columns : List String
  values : List (List Nat)

namespace Insertion

def group (numbers : List Nat) : String :=
  "(" ++ ",".intercalate (numbers.map fun number => "$" ++ toString number) ++ ")"

def header (columns : List String) : String :=
  "INSERT INTO request_logs (" ++ ", ".intercalate columns ++ ") VALUES "

def text (insertion : Insertion) : String :=
  header insertion.columns ++ ",".intercalate (insertion.values.map group)

/-- The rows that are inserted. A placeholder stands for the value that is bound as the one with its
number. -/
def rows (insertion : Insertion) (bound : List Bound) : List (List (String × Option Bound)) :=
  insertion.values.map fun numbers =>
    insertion.columns.zip (numbers.map fun number => bound[number - 1]?)

end Insertion

def RequestLog.columns (log : RequestLog) : List (String × Bound) :=
  [("ts", .timestamptz log.ts), ("method", .text log.method), ("path", .text log.path),
    ("status", .smallint log.status), ("latency_ms", .integer log.latencyMs),
    ("user_id", .nullableUuid log.userId), ("auth_kind", .text log.authKind),
    ("ip", .nullableText log.ip), ("user_agent", .nullableText log.userAgent),
    ("bytes_out", .nullableBigint log.bytesOut)]

def columnNames : List String :=
  ["ts", "method", "path", "status", "latency_ms", "user_id", "auth_kind", "ip", "user_agent",
    "bytes_out"]

def numbered (rows : Nat) : Insertion where
  columns := columnNames
  values := (List.range rows).map fun row => (List.range cols).map fun col => row * cols + col + 1

example : insertSql 2 = (numbered 2).text := by decide +kernel

/-! ## The text -/

theorem foldl_separated (separator start : String) (piece : Nat → String) (count : Nat) :
    (List.range count).foldl
        (fun text index => (if 0 < index then text ++ separator else text) ++ piece index) start =
      start ++ separator.intercalate ((List.range count).map piece) := by
  induction count with
  | zero => simp
  | succ count induction =>
      rw [List.range_succ, List.foldl_append, List.map_append, induction]
      cases count with
      | zero => simp
      | succ count =>
          have present : (List.range (count + 1)).map piece ≠ [] := by simp
          rw [String.intercalate_append_of_ne_nil present (by simp)]
          simp [String.append_assoc]

theorem foldl_columns (sql : String) (base : Nat) :
    (List.range cols).foldl (fun sql col =>
        (if 0 < col then sql ++ "," else sql) ++ "$" ++ toString (base + col + 1)) sql ++ ")" =
      sql ++ ",".intercalate ((List.range cols).map fun col => "$" ++ toString (base + col + 1)) ++
        ")" := by
  simp only [String.append_assoc]
  rw [foldl_separated, String.append_assoc]

theorem insertHeader_eq : insertHeader = Insertion.header columnNames := by
  decide +kernel

theorem text_numbered (rows : Nat) : (numbered rows).text =
    insertHeader ++ ",".intercalate ((List.range rows).map fun row =>
      Insertion.group ((List.range cols).map fun col => row * cols + col + 1)) := by
  rw [insertHeader_eq]
  simp only [Insertion.text, numbered, List.map_map, Function.comp_def]

theorem insertSql_eq (rows : Nat) : insertSql rows = (numbered rows).text := by
  have each : ∀ (sql : String) (row : Nat),
      (List.range cols).foldl (fun sql col =>
          (if 0 < col then sql ++ "," else sql) ++ "$" ++ toString (row * cols + col + 1))
        ((if 0 < row then sql ++ "," else sql) ++ "(") ++ ")" =
      (if 0 < row then sql ++ "," else sql) ++
        Insertion.group ((List.range cols).map fun col => row * cols + col + 1) := by
    intro sql row
    rw [foldl_columns]
    simp only [Insertion.group, List.map_map, Function.comp_def, String.append_assoc]
  rw [text_numbered, ← foldl_separated]
  simp only [insertSql, each]

/-! ## The values -/

theorem length_bound (log : RequestLog) : log.bound.length = cols := rfl

theorem getElem?_binds (batch : List RequestLog) (row : Nat) {col : Nat} (inside : col < cols) :
    (binds batch)[row * cols + col]? = batch[row]?.bind fun log => log.bound[col]? := by
  induction batch generalizing row with
  | nil => rfl
  | cons log rest induction =>
      have whole : binds (log :: rest) = log.bound ++ binds rest := List.flatMap_cons
      cases row with
      | zero =>
          rw [whole, Nat.zero_mul, Nat.zero_add,
            List.getElem?_append_left (by rwa [length_bound])]
          rfl
      | succ row =>
          rw [whole, List.getElem?_append_right (by rw [length_bound, Nat.add_mul]; omega),
            length_bound, Nat.add_mul, Nat.one_mul, Nat.add_right_comm, Nat.add_sub_cancel,
            induction]
          rfl

/-- Every record is inserted with each value in its own column. -/
theorem rows_binds (batch : List RequestLog) : (numbered batch.length).rows (binds batch) =
    batch.map fun log => log.columns.map fun (name, value) => (name, some value) := by
  refine List.ext_getElem (by simp [Insertion.rows, numbered]) fun row long short => ?_
  have inside : row < batch.length := by simpa using short
  have values : ((List.range cols).map fun col => (binds batch)[row * cols + col + 1 - 1]?) =
      batch[row].bound.map some := by
    have here : batch[row]? = some batch[row] := List.getElem?_eq_getElem inside
    have each : ∀ col ∈ List.range cols, (binds batch)[row * cols + col + 1 - 1]? =
        batch[row].bound[col]? := by
      intro col among
      rw [Nat.add_sub_cancel, getElem?_binds batch row (List.mem_range.mp among), here,
        Option.bind_some]
    rw [List.map_congr_left each]
    rfl
  simp only [Insertion.rows, numbered, List.getElem_map, List.getElem_range, List.map_map]
  exact congrArg columnNames.zip values

end Loontail.Observability
