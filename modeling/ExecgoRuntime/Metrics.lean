import ExecgoRuntime.Columns
import ExecgoRuntime.Lib.Delimited
import ExecgoRuntime.Lib.PartitionPoint
import ExecgoRuntime.Lib.Saturating
import Mathlib.Data.List.AList
import Mathlib.Data.List.Dedup

/-!
The metrics page. The repository counts rows by status and by error code and
lists the durations; the renderer writes the counts and a histogram of the
durations as lines of text. The page is read the way a scraper reads it: the
value of a series is what stands behind its name in a line that begins with it.
-/
namespace ExecgoRuntime

open Delimited PartitionPoint

/-- The answers to the three queries of `metrics_snapshot`. -/
structure MetricsRows where
  statuses : List (String × ℤ)
  errorCodes : List (String × ℤ)
  durations : List ℤ

/-- `COUNT(*)` with `GROUP BY`, over the values of the column. -/
def groupCounts (values : List String) : List (String × ℤ) :=
  values.dedup.map (fun value => (value, (values.count value : ℤ)))

/-- No query asks for an order, so the rows of each answer come in any. -/
structure Db.Answers (db : Db) (rows : MetricsRows) : Prop where
  statuses : rows.statuses.Perm
    (groupCounts (db.tasks.rows.map (fun row => encodeStatus row.status)))
  errorCodes : rows.errorCodes.Perm
    (groupCounts (db.tasks.rows.filterMap (fun row => row.errorCode.map encodeErrorCode)))
  durations : rows.durations.Perm
    (db.tasks.rows.filterMap (fun row => row.durationMs.map Int.ofNat))

abbrev CountMap := AList (fun _ : String => ℕ)

structure MetricsSnapshot where
  byStatus : CountMap
  byErrorCode : CountMap
  finishedDurationsMs : List ℕ

/-- The loop over the rows of a grouped count. -/
def countMap (rows : List (String × ℤ)) : CountMap :=
  rows.foldl (fun counts row => counts.insert row.1 (widen row.2)) ∅

def metricsSnapshot (rows : MetricsRows) : MetricsSnapshot where
  byStatus := countMap rows.statuses
  byErrorCode := countMap rows.errorCodes
  finishedDurationsMs := rows.durations.map widen

def bucketsMs : List ℕ := [100, 250, 500, 1000, 5000, 10000, 30000, 60000, 300000]

/-- The entries of a map in the order of their keys. -/
def CountMap.inOrder (counts : CountMap) : List (Σ _ : String, ℕ) :=
  counts.entries.insertionSort (fun a b => a.1 ≤ b.1)

def CountMap.lines (counts : CountMap) (family label : String) : List String :=
  counts.inOrder.map (fun entry =>
    family ++ "\x7b" ++ label ++ "=\"" ++ entry.1 ++ "\"\x7d " ++ toString entry.2)

def bucketSeries (bound : String) : String :=
  "execgo_runtime_task_duration_ms_bucket\x7ble=\"" ++ bound ++ "\"\x7d"

def sumSeries : String := "execgo_runtime_task_duration_ms_sum"

def countSeries : String := "execgo_runtime_task_duration_ms_count"

def comments (family help kind : String) : List String :=
  ["# HELP " ++ family ++ " " ++ help, "# TYPE " ++ family ++ " " ++ kind]

/-- The lines above the samples of the histogram. -/
def headLines (snapshot : MetricsSnapshot) : List String :=
  comments "execgo_runtime_tasks_total" "Total tasks by terminal and in-flight status" "counter" ++
  snapshot.byStatus.lines "execgo_runtime_tasks_total" "status" ++
  comments "execgo_runtime_tasks_running" "Tasks currently running" "gauge" ++
  ["execgo_runtime_tasks_running " ++ toString ((snapshot.byStatus.lookup "running").getD 0)] ++
  comments "execgo_runtime_task_errors_total" "Total tasks by error code" "counter" ++
  snapshot.byErrorCode.lines "execgo_runtime_task_errors_total" "code" ++
  comments "execgo_runtime_task_duration_ms" "Task duration histogram in milliseconds" "histogram"

/-- The samples of the histogram, a series and its value. -/
def histogram (durations : List ℕ) : List (String × ℕ) :=
  let sorted := durations.insertionSort (fun a b => a ≤ b)
  let sum := sorted.foldl (Saturating.add u64Max) 0
  bucketsMs.map (fun bucket =>
    (bucketSeries (toString bucket), partitionPoint (fun d => decide (d ≤ bucket)) sorted)) ++
  [(bucketSeries "+Inf", sorted.length), (sumSeries, sum), (countSeries, sorted.length)]

def sampleLine (sample : String × ℕ) : String := sample.1 ++ " " ++ toString sample.2

def renderPrometheus (snapshot : MetricsSnapshot) : String :=
  (headLines snapshot ++ (histogram snapshot.finishedDurationsMs).map sampleLine).foldl
    (fun out line => out ++ line ++ "\n") ""

/-- The values of a series on a page. -/
def samples (page series : String) : List String :=
  (labelled '\n' (series ++ " ").toList page.toList).map String.ofList

theorem entries_foldl_insert {rows : List (String × ℤ)} (hkeys : (rows.map Prod.fst).Nodup)
    {start : CountMap} (hfresh : ∀ row ∈ rows, row.1 ∉ start) :
    (rows.foldl (fun counts row => counts.insert row.1 (widen row.2)) start).entries.Perm
      (rows.map (fun row => ⟨row.1, widen row.2⟩) ++ start.entries) := by
  induction rows generalizing start with
  | nil => exact List.Perm.refl _
  | cons row rows ih =>
    obtain ⟨hrow, hrows⟩ := List.nodup_cons.mp hkeys
    have hnew : row.1 ∉ start := hfresh row List.mem_cons_self
    have hfresh' : ∀ other ∈ rows, other.1 ∉ start.insert row.1 (widen row.2) := by
      intro other hother hmem
      rcases (AList.mem_insert start).mp hmem with heq | hmem
      · exact hrow (heq ▸ List.mem_map_of_mem hother)
      · exact hfresh other (List.mem_cons_of_mem _ hother) hmem
    have hentries := ih hrows hfresh'
    rw [AList.entries_insert_of_notMem hnew] at hentries
    exact hentries.trans List.perm_middle

theorem entries_countMap {rows : List (String × ℤ)} (hkeys : (rows.map Prod.fst).Nodup) :
    (countMap rows).entries.Perm (rows.map (fun row => ⟨row.1, widen row.2⟩)) := by
  have hentries := entries_foldl_insert hkeys (fun row (_ : row ∈ rows) => AList.notMem_empty row.1)
  simpa [countMap] using hentries

theorem CountMap.pairwise_inOrder (counts : CountMap) :
    counts.inOrder.Pairwise (fun a b => a.1 ≤ b.1) :=
  List.pairwise_insertionSort _ _

theorem CountMap.lines_eq_of_perm {counts counts' : CountMap}
    (h : counts.entries.Perm counts'.entries) (family label : String) :
    counts.lines family label = counts'.lines family label := by
  have hsorted : counts.inOrder = counts'.inOrder := by
    have hperm : counts.inOrder.Perm counts'.inOrder :=
      (List.perm_insertionSort _ _).trans (h.trans (List.perm_insertionSort _ _).symm)
    refine List.Perm.eq_of_pairwise ?_ counts.pairwise_inOrder counts'.pairwise_inOrder hperm
    intro a b ha hb hab hba
    rw [inOrder, List.mem_insertionSort] at ha hb
    exact counts'.nodupKeys.eq_of_fst_eq (h.subset ha) hb (String.le_antisymm hab hba)
  rw [CountMap.lines, CountMap.lines, hsorted]

theorem keys_groupCounts (values : List String) :
    (groupCounts values).map Prod.fst = values.dedup := by
  simp [groupCounts, Function.comp_def]

theorem Db.Answers.statusKeys {db : Db} {rows : MetricsRows} (h : db.Answers rows) :
    (rows.statuses.map Prod.fst).Perm
      (db.tasks.rows.map (fun row => encodeStatus row.status)).dedup := by
  rw [← keys_groupCounts]
  exact h.statuses.map Prod.fst

theorem Db.Answers.errorKeys {db : Db} {rows : MetricsRows} (h : db.Answers rows) :
    (rows.errorCodes.map Prod.fst).Perm
      (db.tasks.rows.filterMap (fun row => row.errorCode.map encodeErrorCode)).dedup := by
  rw [← keys_groupCounts]
  exact h.errorCodes.map Prod.fst

theorem Db.Answers.byStatus {db : Db} {rows : MetricsRows} (h : db.Answers rows) :
    (metricsSnapshot rows).byStatus.entries.Perm
      (rows.statuses.map (fun row => ⟨row.1, widen row.2⟩)) :=
  entries_countMap (h.statusKeys.nodup_iff.mpr (List.nodup_dedup _))

theorem Db.Answers.byErrorCode {db : Db} {rows : MetricsRows} (h : db.Answers rows) :
    (metricsSnapshot rows).byErrorCode.entries.Perm
      (rows.errorCodes.map (fun row => ⟨row.1, widen row.2⟩)) :=
  entries_countMap (h.errorKeys.nodup_iff.mpr (List.nodup_dedup _))

/-- A sample as its line is read. -/
def sampleEntry (sample : String × ℕ) : List Char × List Char :=
  ((sample.1 ++ " ").toList, (toString sample.2).toList)

theorem toList_sampleLine (sample : String × ℕ) :
    (sampleLine sample).toList = (sampleEntry sample).1 ++ (sampleEntry sample).2 := by
  simp [sampleLine, sampleEntry]

theorem toList_foldl_lines (lines : List String) (out : String) :
    (lines.foldl (fun out line => out ++ line ++ "\n") out).toList =
      out.toList ++ terminate '\n' (lines.map String.toList) := by
  induction lines generalizing out with
  | nil => simp [terminate]
  | cons line lines ih =>
    rw [List.foldl_cons, ih]
    simp [terminate]

theorem toList_renderPrometheus (snapshot : MetricsSnapshot) :
    (renderPrometheus snapshot).toList =
      terminate '\n' ((headLines snapshot).map String.toList ++
        ((histogram snapshot.finishedDurationsMs).map sampleEntry).map
          (fun entry => entry.1 ++ entry.2)) := by
  have hlines : ((histogram snapshot.finishedDurationsMs).map sampleLine).map String.toList =
      ((histogram snapshot.finishedDurationsMs).map sampleEntry).map
        (fun entry => entry.1 ++ entry.2) := by
    rw [List.map_map, List.map_map]
    exact List.map_congr_left (fun sample _ => toList_sampleLine sample)
  rw [renderPrometheus, toList_foldl_lines, List.map_append, hlines, String.toList_empty,
    List.nil_append]

theorem not_mem_toString {c : Char} (hc : c.isDigit = false) (n : ℕ) :
    c ∉ (toString n).toList := by
  rw [Nat.toString_eq_ofList_toDigits, String.toList_ofList]
  intro hmem
  rw [Nat.isDigit_of_mem_toDigits (by omega) (by omega) hmem] at hc
  cases hc

theorem not_mem_ofList {c : Char} {l : List Char} (h : c ∉ l) :
    c ∉ (String.ofList l).toList := by
  rwa [String.toList_ofList]

theorem begins_ofList {l l' : List Char} (h : l <+: l') :
    (String.ofList l).toList <+: (String.ofList l').toList := by
  rwa [String.toList_ofList, String.toList_ofList]

theorem diverge_ofList {l l' : List Char} (h : Diverge l l') :
    Diverge (String.ofList l).toList (String.ofList l').toList := by
  rwa [String.toList_ofList, String.toList_ofList]

/-- What begins every sample of the histogram. -/
def histogramStem : String := "execgo_runtime_task_duration_ms_"

/-- One line that is no sample of the histogram. -/
def IsHeadLine (line : String) : Prop :=
  '\n' ∉ line.toList ∧ ¬ histogramStem.toList <+: line.toList

theorem isHeadLine_append {family rest : String}
    (hfamily : '\n' ∉ family.toList ∧ Diverge histogramStem.toList family.toList)
    (hrest : '\n' ∉ rest.toList) : IsHeadLine (family ++ rest) := by
  unfold IsHeadLine
  rw [String.toList_append, List.mem_append, not_or]
  exact ⟨⟨hfamily.1, hrest⟩, hfamily.2.not_begins _⟩

theorem isHeadLine_of_mem_comments {family help kind line : String}
    (h : line ∈ comments family help kind) (hfamily : '\n' ∉ family.toList)
    (hhelp : '\n' ∉ help.toList) (hkind : '\n' ∉ kind.toList) : IsHeadLine line := by
  have hline : ∀ mark text : String,
      '\n' ∉ mark.toList ∧ Diverge histogramStem.toList mark.toList → '\n' ∉ text.toList →
      IsHeadLine (mark ++ family ++ " " ++ text) := by
    intro mark text hmark htext
    simp only [String.append_assoc]
    refine isHeadLine_append hmark ?_
    simp only [String.toList_append, List.mem_append, not_or]
    exact ⟨hfamily, by decide, htext⟩
  simp only [comments, List.mem_cons, List.not_mem_nil, or_false] at h
  rcases h with rfl | rfl
  · exact hline _ help ⟨not_mem_ofList (by decide), diverge_ofList (by decide)⟩ hhelp
  · exact hline _ kind ⟨not_mem_ofList (by decide), diverge_ofList (by decide)⟩ hkind

theorem isHeadLine_of_mem_lines {counts : CountMap} {family label line : String}
    (h : line ∈ counts.lines family label)
    (hfamily : '\n' ∉ family.toList ∧ Diverge histogramStem.toList family.toList)
    (hlabel : '\n' ∉ label.toList) (hkeys : ∀ entry ∈ counts.entries, '\n' ∉ entry.1.toList) :
    IsHeadLine line := by
  obtain ⟨entry, hentry, rfl⟩ := List.mem_map.mp h
  rw [CountMap.inOrder, List.mem_insertionSort] at hentry
  have hkey := hkeys entry hentry
  have hcount := not_mem_toString (by decide : '\n'.isDigit = false) entry.2
  simp only [String.append_assoc]
  refine isHeadLine_append hfamily ?_
  simp only [String.toList_append, List.mem_append, hlabel, hkey, hcount, or_false, false_or]
  decide

theorem isHeadLine_of_mem_headLines {snapshot : MetricsSnapshot}
    (hstatus : ∀ entry ∈ snapshot.byStatus.entries, '\n' ∉ entry.1.toList)
    (herror : ∀ entry ∈ snapshot.byErrorCode.entries, '\n' ∉ entry.1.toList) :
    ∀ line ∈ headLines snapshot, IsHeadLine line := by
  intro line hline
  simp only [headLines, List.mem_append, List.mem_singleton] at hline
  rcases hline with (((((htotal | hstatuses) | hrunning) | hvalue) | herrors) | hcodes) | hduration
  · exact isHeadLine_of_mem_comments htotal (not_mem_ofList (by decide))
      (not_mem_ofList (by decide)) (not_mem_ofList (by decide))
  · exact isHeadLine_of_mem_lines hstatuses
      ⟨not_mem_ofList (by decide), diverge_ofList (by decide)⟩ (not_mem_ofList (by decide)) hstatus
  · exact isHeadLine_of_mem_comments hrunning (not_mem_ofList (by decide))
      (not_mem_ofList (by decide)) (not_mem_ofList (by decide))
  · rw [hvalue]
    exact isHeadLine_append ⟨not_mem_ofList (by decide), diverge_ofList (by decide)⟩
      (not_mem_toString (by decide) _)
  · exact isHeadLine_of_mem_comments herrors (not_mem_ofList (by decide))
      (not_mem_ofList (by decide)) (not_mem_ofList (by decide))
  · exact isHeadLine_of_mem_lines hcodes
      ⟨not_mem_ofList (by decide), diverge_ofList (by decide)⟩ (not_mem_ofList (by decide)) herror
  · exact isHeadLine_of_mem_comments hduration (not_mem_ofList (by decide))
      (not_mem_ofList (by decide)) (not_mem_ofList (by decide))

/-- The series of the histogram. -/
def histogramSeries : List String :=
  bucketsMs.map (fun bucket => bucketSeries (toString bucket)) ++
    [bucketSeries "+Inf", sumSeries, countSeries]

theorem histogram_series (durations : List ℕ) :
    (histogram durations).map Prod.fst = histogramSeries := by
  simp [histogram, histogramSeries, Function.comp_def]

/-- A word that begins like every sample of the histogram. -/
structure IsSeries (series : String) : Prop where
  line : '\n' ∉ series.toList
  word : ' ' ∉ series.toList
  stem : histogramStem.toList <+: series.toList

theorem isSeries_append {front rest : String} (hfront : IsSeries front)
    (hrest : '\n' ∉ rest.toList ∧ ' ' ∉ rest.toList) : IsSeries (front ++ rest) where
  line := by simpa using ⟨hfront.line, hrest.1⟩
  word := by simpa using ⟨hfront.word, hrest.2⟩
  stem := by
    rw [String.toList_append]
    exact hfront.stem.trans (List.prefix_append _ _)

theorem isSeries_bucketSeries {bound : String}
    (h : '\n' ∉ bound.toList ∧ ' ' ∉ bound.toList) : IsSeries (bucketSeries bound) := by
  have hfront : IsSeries "execgo_runtime_task_duration_ms_bucket\x7ble=\"" :=
    ⟨not_mem_ofList (by decide), not_mem_ofList (by decide), begins_ofList (by decide)⟩
  exact isSeries_append (isSeries_append hfront h) (by decide)

theorem isSeries_of_mem {series : String} (h : series ∈ histogramSeries) : IsSeries series := by
  simp only [histogramSeries, List.mem_append, List.mem_map, List.mem_cons, List.not_mem_nil,
    or_false] at h
  rcases h with ⟨bucket, _, rfl⟩ | rfl | rfl | rfl
  · exact isSeries_bucketSeries
      ⟨not_mem_toString (by decide) bucket, not_mem_toString (by decide) bucket⟩
  · exact isSeries_bucketSeries (by decide)
  · exact ⟨not_mem_ofList (by decide), not_mem_ofList (by decide), begins_ofList (by decide)⟩
  · exact ⟨not_mem_ofList (by decide), not_mem_ofList (by decide), begins_ofList (by decide)⟩

theorem nodup_histogramSeries : histogramSeries.Nodup := by decide +kernel

theorem diverge_histogramSeries :
    (histogramSeries.map (fun series => (series ++ " ").toList)).Pairwise Diverge := by
  rw [List.pairwise_map]
  refine nodup_histogramSeries.imp_of_mem ?_
  intro series other hseries hother hne
  rw [String.toList_append, String.toList_append]
  exact diverge_of_ne (isSeries_of_mem hseries).word (isSeries_of_mem hother).word
    fun heq => hne (String.toList_inj.mp heq)

theorem diverge_sampleEntries (durations : List ℕ) :
    (((histogram durations).map sampleEntry).map Prod.fst).Pairwise Diverge := by
  have hlabels : ((histogram durations).map sampleEntry).map Prod.fst =
      histogramSeries.map (fun series => (series ++ " ").toList) := by
    rw [← histogram_series durations, List.map_map, List.map_map]
    rfl
  rw [hlabels]
  exact diverge_histogramSeries

theorem isSeries_of_sample {durations : List ℕ} {sample : String × ℕ}
    (h : sample ∈ histogram durations) : IsSeries sample.1 := by
  apply isSeries_of_mem
  rw [← histogram_series durations]
  exact List.mem_map_of_mem h

/-- A series of the histogram has one sample on the page. -/
theorem samples_renderPrometheus {snapshot : MetricsSnapshot}
    (hhead : ∀ line ∈ headLines snapshot, IsHeadLine line) {series : String} {value : ℕ}
    (hmem : (series, value) ∈ histogram snapshot.finishedDurationsMs) :
    samples (renderPrometheus snapshot) series = [toString value] := by
  have hstem : histogramStem.toList <+: (series ++ " ").toList := by
    have hself : IsSeries series := isSeries_of_sample hmem
    rw [String.toList_append]
    exact hself.stem.trans (List.prefix_append _ _)
  have hhead' : ∀ line ∈ (headLines snapshot).map String.toList,
      '\n' ∉ line ∧ ¬ (series ++ " ").toList <+: line := by
    intro line hline
    obtain ⟨text, htext, rfl⟩ := List.mem_map.mp hline
    exact ⟨(hhead text htext).1, fun hbegins => (hhead text htext).2 (hstem.trans hbegins)⟩
  have hentries : ∀ pair ∈ (histogram snapshot.finishedDurationsMs).map sampleEntry,
      '\n' ∉ pair.1 ++ pair.2 := by
    intro pair hpair
    obtain ⟨sample, hsample, rfl⟩ := List.mem_map.mp hpair
    have hline := (isSeries_of_sample hsample).line
    have hvalue := not_mem_toString (by decide : '\n'.isDigit = false) sample.2
    simp only [sampleEntry, String.toList_append, List.mem_append, hline, hvalue, or_false,
      false_or]
    decide
  have hlabel : (series ++ " ").toList ≠ [] := by simp
  have hsample : sampleEntry (series, value) ∈
      (histogram snapshot.finishedDurationsMs).map sampleEntry := List.mem_map_of_mem hmem
  have hread := labelled_terminate hlabel (fun line hline => (hhead' line hline).1) hentries
    (fun line hline => (hhead' line hline).2) (diverge_sampleEntries snapshot.finishedDurationsMs)
    hsample
  rw [samples, toList_renderPrometheus, hread, List.map_singleton, String.ofList_toList]

/-- The rows that ended within the bound. -/
def Db.finishedWithin (db : Db) (bound : ℕ) : ℕ :=
  db.tasks.rows.countP (fun row => row.durationMs.any (fun d => decide (d ≤ bound)))

/-- The rows with a duration. -/
def Db.finished (db : Db) : ℕ := db.tasks.rows.countP (fun row => row.durationMs.isSome)

def Db.durations (db : Db) : List ℕ := db.tasks.rows.filterMap TaskRecord.durationMs

theorem Db.Answers.finishedDurationsMs {db : Db} {rows : MetricsRows} (h : db.Answers rows) :
    (metricsSnapshot rows).finishedDurationsMs.Perm db.durations := by
  have hwiden : (db.tasks.rows.filterMap (fun row => row.durationMs.map Int.ofNat)).map widen =
      db.durations := by
    rw [List.map_filterMap, Db.durations]
    congr 1
    funext row
    cases row.durationMs <;> rfl
  rw [← hwiden]
  exact h.durations.map widen

theorem Db.countP_durations (db : Db) (bound : ℕ) :
    db.durations.countP (fun d => decide (d ≤ bound)) = db.finishedWithin bound := by
  rw [Db.durations, List.countP_filterMap, Db.finishedWithin]
  congr 1
  funext row
  cases row.durationMs <;> rfl

theorem Db.length_durations (db : Db) : db.durations.length = db.finished := by
  rw [Db.durations, List.length_filterMap_eq_countP]
  rfl

/-- The histogram in terms of the durations, in whatever order they come. -/
theorem histogram_eq {db : Db} {durations : List ℕ} (h : durations.Perm db.durations) :
    histogram durations =
      bucketsMs.map (fun bucket => (bucketSeries (toString bucket), db.finishedWithin bucket)) ++
      [(bucketSeries "+Inf", db.finished), (sumSeries, min db.durations.sum u64Max),
        (countSeries, db.finished)] := by
  have hsorted : (durations.insertionSort (fun a b => a ≤ b)).Pairwise (fun a b => a ≤ b) :=
    List.pairwise_insertionSort _ durations
  have hperm : (durations.insertionSort (fun a b => a ≤ b)).Perm db.durations :=
    (List.perm_insertionSort _ durations).trans h
  have hbucket : ∀ bucket,
      partitionPoint (fun d => decide (d ≤ bucket)) (durations.insertionSort (fun a b => a ≤ b)) =
        db.finishedWithin bucket := by
    intro bucket
    have hpartitioned : Partitioned (fun d => decide (d ≤ bucket))
        (durations.insertionSort (fun a b => a ≤ b)) := by
      refine partitioned_of_pairwise hsorted fun a b hab hb => ?_
      simp only [decide_eq_true_eq] at hb ⊢
      omega
    rw [partitionPoint_eq_countP hpartitioned, hperm.countP_eq, db.countP_durations]
  have hlength : (durations.insertionSort (fun a b => a ≤ b)).length = db.finished := by
    rw [hperm.length_eq, db.length_durations]
  have hsum : (durations.insertionSort (fun a b => a ≤ b)).foldl (Saturating.add u64Max) 0 =
      min db.durations.sum u64Max := by
    have hfold := Saturating.foldl_add u64Max 0 (durations.insertionSort (fun a b => a ≤ b))
    rwa [Nat.zero_min, Nat.zero_add, hperm.sum_eq] at hfold
  simp only [histogram, hbucket, hlength, hsum]

theorem finishedWithin_mono (db : Db) {bound bound' : ℕ} (h : bound ≤ bound') :
    db.finishedWithin bound ≤ db.finishedWithin bound' := by
  refine List.countP_mono_left fun row _ hrow => ?_
  cases hduration : row.durationMs with
  | none => simp [hduration] at hrow
  | some d =>
    simp only [hduration, Option.any_some, decide_eq_true_eq] at hrow ⊢
    omega

theorem finishedWithin_le_finished (db : Db) (bound : ℕ) :
    db.finishedWithin bound ≤ db.finished := by
  refine List.countP_mono_left fun row _ hrow => ?_
  cases hduration : row.durationMs with
  | none => simp [hduration] at hrow
  | some d => rfl

theorem encodeStatus_oneLine (status : TaskStatus) : '\n' ∉ (encodeStatus status).toList := by
  cases status <;> exact not_mem_ofList (by decide)

theorem encodeErrorCode_oneLine (code : ErrorCode) : '\n' ∉ (encodeErrorCode code).toList := by
  cases code <;> exact not_mem_ofList (by decide)

theorem Db.Answers.isHeadLine {db : Db} {rows : MetricsRows} (h : db.Answers rows) :
    ∀ line ∈ headLines (metricsSnapshot rows), IsHeadLine line := by
  refine isHeadLine_of_mem_headLines ?_ ?_
  · intro entry hentry
    obtain ⟨row, hrow, rfl⟩ := List.mem_map.mp (h.byStatus.subset hentry)
    have hkey := h.statusKeys.subset (List.mem_map_of_mem (f := Prod.fst) hrow)
    obtain ⟨task, _, htask⟩ := List.mem_map.mp (List.mem_dedup.mp hkey)
    rw [← htask]
    exact encodeStatus_oneLine task.status
  · intro entry hentry
    obtain ⟨row, hrow, rfl⟩ := List.mem_map.mp (h.byErrorCode.subset hentry)
    have hkey := h.errorKeys.subset (List.mem_map_of_mem (f := Prod.fst) hrow)
    obtain ⟨task, _, htask⟩ := List.mem_filterMap.mp (List.mem_dedup.mp hkey)
    obtain ⟨code, _, hcode⟩ := Option.map_eq_some_iff.mp htask
    rw [← hcode]
    exact encodeErrorCode_oneLine code

theorem renderPrometheus_eq {db : Db} {rows rows' : MetricsRows} (h : db.Answers rows)
    (h' : db.Answers rows') :
    renderPrometheus (metricsSnapshot rows) = renderPrometheus (metricsSnapshot rows') := by
  have hstatus : (metricsSnapshot rows).byStatus.entries.Perm
      (metricsSnapshot rows').byStatus.entries :=
    h.byStatus.trans (((h.statuses.trans h'.statuses.symm).map _).trans h'.byStatus.symm)
  have herror : (metricsSnapshot rows).byErrorCode.entries.Perm
      (metricsSnapshot rows').byErrorCode.entries :=
    h.byErrorCode.trans (((h.errorCodes.trans h'.errorCodes.symm).map _).trans h'.byErrorCode.symm)
  have hhead : headLines (metricsSnapshot rows) = headLines (metricsSnapshot rows') := by
    simp only [headLines, CountMap.lines_eq_of_perm hstatus, CountMap.lines_eq_of_perm herror,
      AList.perm_lookup hstatus]
  have hhistogram : histogram (metricsSnapshot rows).finishedDurationsMs =
      histogram (metricsSnapshot rows').finishedDurationsMs := by
    rw [histogram_eq h.finishedDurationsMs, histogram_eq h'.finishedDurationsMs]
  rw [renderPrometheus, renderPrometheus, hhead, hhistogram]

/-- A page shows every bucket of the histogram with the number of rows within its
bound, the whole number of finished rows and the capped sum, each once, and it is
the same page whatever the order of the answers. -/
theorem duration_histogram_correct (db : Db) (rows : MetricsRows) (h : db.Answers rows) :
    (∀ bound ∈ bucketsMs,
      samples (renderPrometheus (metricsSnapshot rows)) (bucketSeries (toString bound)) =
        [toString (db.finishedWithin bound)] ∧
      db.finishedWithin bound ≤ db.finished ∧
      ∀ bound' ∈ bucketsMs, bound ≤ bound' →
        db.finishedWithin bound ≤ db.finishedWithin bound') ∧
    samples (renderPrometheus (metricsSnapshot rows)) (bucketSeries "+Inf") =
      [toString db.finished] ∧
    samples (renderPrometheus (metricsSnapshot rows)) countSeries = [toString db.finished] ∧
    samples (renderPrometheus (metricsSnapshot rows)) sumSeries =
      [toString (if db.durations.sum < 2 ^ 64 then db.durations.sum else 2 ^ 64 - 1)] ∧
    ∀ rows', db.Answers rows' →
      renderPrometheus (metricsSnapshot rows') = renderPrometheus (metricsSnapshot rows) := by
  have hhistogram := histogram_eq h.finishedDurationsMs
  have hsample : ∀ series value,
      (series, value) ∈ histogram (metricsSnapshot rows).finishedDurationsMs →
      samples (renderPrometheus (metricsSnapshot rows)) series = [toString value] :=
    fun series value hmem => samples_renderPrometheus h.isHeadLine hmem
  have hcap : min db.durations.sum u64Max =
      if db.durations.sum < 2 ^ 64 then db.durations.sum else 2 ^ 64 - 1 := by
    unfold u64Max
    split <;> omega
  refine ⟨fun bound hbound => ⟨hsample _ _ ?_, finishedWithin_le_finished db bound,
    fun bound' _ hle => finishedWithin_mono db hle⟩, hsample _ _ ?_, hsample _ _ ?_, ?_,
    fun rows' h' => renderPrometheus_eq h' h⟩
  · rw [hhistogram]
    exact List.mem_append_left _ (List.mem_map.mpr ⟨bound, hbound, rfl⟩)
  · simp [hhistogram]
  · simp [hhistogram]
  · rw [← hcap]
    apply hsample
    simp [hhistogram]

private def ranFor (taskId : TaskId) (durationMs : ℕ) : TaskRecord :=
  { sandboxedScript.toRow 5 with taskId, status := .success, durationMs := some durationMs }

/-- A run as long as the first bound, and one whose duration fills the sum. -/
def twoRuns : Db where
  tasks := ⟨[ranFor "a" 100, ranFor "b" (2 ^ 64 - 1)], by decide⟩
  taskEvents := []
  lastSeq := 0
  ownedEvents := by simp

def twoRunsRows : MetricsRows where
  statuses := [("success", 2)]
  errorCodes := []
  durations := [2 ^ 64 - 1, 100]

theorem duration_histogram_of_two_runs :
    samples (renderPrometheus (metricsSnapshot twoRunsRows)) (bucketSeries (toString 100)) =
      ["1"] ∧
    samples (renderPrometheus (metricsSnapshot twoRunsRows)) (bucketSeries "+Inf") = ["2"] ∧
    samples (renderPrometheus (metricsSnapshot twoRunsRows)) sumSeries =
      [toString (2 ^ 64 - 1)] := by
  have hanswers : twoRuns.Answers twoRunsRows := by
    refine ⟨?_, ?_, ?_⟩
    · decide
    · decide
    · exact List.Perm.swap _ _ _
  obtain ⟨hbuckets, hall, -, hsum, -⟩ := duration_histogram_correct twoRuns twoRunsRows hanswers
  exact ⟨(hbuckets 100 (by decide)).1, hall, hsum⟩

end ExecgoRuntime
