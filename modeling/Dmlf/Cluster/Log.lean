import Dmlf.Text.Json
import Dmlf.Text.Lines
import Dmlf.Text.Python
import Dmlf.Auth.Binding

/-!
# The cluster log

The manager appends records to `cluster.log`, each as one line of JSON: its own
(`dmlf/manager/cluster_manager.py`) and those that the agents send with `StreamLogs`.  The
dashboard (`dmlf/dashboard.py`) reads the file back and shows the last ten.

* `readRecords_writeRecords` : the records of a file are those that have been written, whatever
  their texts are.
* `generateLogsPanel_writeRecords` : the dashboard shows the last ten of them.
-/

namespace Dmlf

/-- A record of the log, as a dict with these keys. -/
structure LogRecord where
  timestamp : String
  node : String
  job : String
  level : String
  message : String
  deriving DecidableEq

namespace LogRecord

variable (r : LogRecord)

/-- The dict of a record, with its keys in order. -/
def entries : List (List Char × List Char) :=
  [("timestamp", r.timestamp), ("node", r.node), ("job", r.job), ("level", r.level),
    ("message", r.message)].map fun x => (x.1.toList, x.2.toList)

/-- `json.dumps(log_entry)`. -/
def line : List Char := jsonDict.print r.entries

theorem isPrintable_line : ∀ c ∈ r.line, isPrintable c = true := isPrintable_jsonDict r.entries

theorem notMem_line : '\n' ∉ r.line ∧ '\r' ∉ r.line :=
  ⟨fun h => absurd (r.isPrintable_line _ h) (by decide),
    fun h => absurd (r.isPrintable_line _ h) (by decide)⟩

end LogRecord

/-- `self.log_file.write(json.dumps(log_entry) + "\n")`, for each record. -/
def writeRecords (file : List Char) (records : List LogRecord) : List Char :=
  file ++ writeLines (records.map LogRecord.line)

theorem writeRecords_append (file : List Char) (records records' : List LogRecord) :
    writeRecords file (records ++ records') =
      writeRecords (writeRecords file records) records' := by
  simp [writeRecords, writeLines_append]

/-- The record that `StreamLogs` writes for a message. -/
def LogMessage.toRecord (msg : LogMessage) : LogRecord where
  timestamp := msg.timestamp
  node := msg.nodeId
  job := msg.jobId
  level := msg.level
  message := strip msg.message

/-- `StreamLogs`. -/
def streamLogs (file : List Char) (msgs : List LogMessage) : List Char :=
  msgs.foldl (fun file msg => writeRecords file [msg.toRecord]) file

theorem streamLogs_eq (file : List Char) (msgs : List LogMessage) :
    streamLogs file msgs = writeRecords file (msgs.map LogMessage.toRecord) := by
  induction msgs generalizing file with
  | nil => simp [streamLogs, writeRecords, writeLines]
  | cons msg msgs ih =>
    rw [streamLogs, List.foldl_cons, ← streamLogs, ih, ← writeRecords_append]
    rfl

/-! ### Reading the file -/

/-- The value of a key of a dict; the last one counts. -/
def dictGet (dict : List (List Char × List Char)) (key : String) : Option String :=
  (dict.reverse.lookup key.toList).map String.ofList

/-- The record of a line, if it is the JSON of one. -/
def parseRecord (line : List Char) : Option LogRecord := do
  let dict ← jsonDict.loads line
  let timestamp ← dictGet dict "timestamp"
  let node ← dictGet dict "node"
  let job ← dictGet dict "job"
  let level ← dictGet dict "level"
  let message ← dictGet dict "message"
  return { timestamp, node, job, level, message }

/-- The records of a file. -/
def readRecords (file : List Char) : List LogRecord := (readLines file).filterMap parseRecord

/-- The line that the dashboard shows for a line of the file. -/
def panelLine (line : List Char) : String :=
  match jsonDict.loads line with
  | some data =>
    "[" ++ (dictGet data "timestamp").getD "" ++ "] [" ++ (dictGet data "node").getD "" ++ "] " ++
      (dictGet data "message").getD ""
  -- `json.loads` has raised an error
  | none => strip (String.ofList line)

/-- `generate_logs_panel`: the last ten lines of the file. -/
def generateLogsPanel (file : List Char) : String :=
  let lines := readLines file
  let logLines := (lines.drop (lines.length - 10)).map panelLine
  if logLines.isEmpty then "No logs yet." else String.intercalate "\n" logLines

/-- What the dashboard shows of a record. -/
def LogRecord.shown (r : LogRecord) : String :=
  "[" ++ r.timestamp ++ "] [" ++ r.node ++ "] " ++ r.message

section

variable (r : LogRecord) (records : List LogRecord)

theorem LogRecord.loads_line : jsonDict.loads (r.line ++ ['\n']) = some r.entries :=
  jsonDict.loads_print_append r.entries (List.forall_mem_singleton.2 (by decide))

theorem LogRecord.dictGet_entries :
    dictGet r.entries "timestamp" = some r.timestamp ∧ dictGet r.entries "node" = some r.node ∧
      dictGet r.entries "job" = some r.job ∧ dictGet r.entries "level" = some r.level ∧
        dictGet r.entries "message" = some r.message := by
  refine ⟨?_, ?_, ?_, ?_, ?_⟩ <;> simp [dictGet, entries, List.lookup_cons]

theorem parseRecord_line : parseRecord (r.line ++ ['\n']) = some r := by
  obtain ⟨htimestamp, hnode, hjob, hlevel, hmessage⟩ := r.dictGet_entries
  simp [parseRecord, r.loads_line, htimestamp, hnode, hjob, hlevel, hmessage]

theorem panelLine_line : panelLine (r.line ++ ['\n']) = r.shown := by
  obtain ⟨htimestamp, hnode, -, -, hmessage⟩ := r.dictGet_entries
  simp [panelLine, r.loads_line, htimestamp, hnode, hmessage, LogRecord.shown]

/-- The lines of a file, whatever is in the records: a line end in a message is escaped. -/
theorem readLines_writeRecords :
    readLines (writeRecords [] records) = records.map fun r => r.line ++ ['\n'] := by
  rw [writeRecords, List.nil_append, readLines_writeLines, List.map_map]
  · rfl
  · intro line hline
    obtain ⟨r, -, rfl⟩ := List.mem_map.1 hline
    exact r.notMem_line

/-- **The records of a file** are those that have been written. -/
theorem readRecords_writeRecords : readRecords (writeRecords [] records) = records := by
  rw [readRecords, readLines_writeRecords, List.filterMap_map]
  refine (List.filterMap_congr fun r _ => ?_).trans List.filterMap_some
  exact parseRecord_line r

/-- **The dashboard shows the last ten records**, each as it was written. -/
theorem generateLogsPanel_writeRecords :
    generateLogsPanel (writeRecords [] records) =
      if records = [] then "No logs yet."
      else String.intercalate "\n" ((records.drop (records.length - 10)).map LogRecord.shown) := by
  have hlines : ∀ records : List LogRecord,
      (records.map fun r => r.line ++ ['\n']).map panelLine = records.map LogRecord.shown := by
    intro records
    rw [List.map_map]
    exact List.map_congr_left fun r _ => panelLine_line r
  have hempty : records.drop (records.length - 10) = [] ↔ records = [] := by
    rw [List.drop_eq_nil_iff, ← List.length_eq_zero_iff]
    omega
  simp only [generateLogsPanel, readLines_writeRecords, List.length_map, ← List.map_drop, hlines,
    List.isEmpty_iff, List.map_eq_nil_iff, hempty]

end

end Dmlf
