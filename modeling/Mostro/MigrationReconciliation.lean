import Mostro.MigrationParser
import Mostro.Migrations

set_option autoImplicit false

/-!
What opening an existing database achieves.  A migration recorded without running only adds columns
that exist, and the database opens where at most one migration has to be skipped, one that the
daemon can read; a second one meets the error of the first again, after the one reconciliation.
-/

namespace Mostro.Migrations

theorem beforeFirst_of_not_mem {marker t : Text} {c : Char} (hc : c ∈ marker) (ht : c ∉ t) :
    beforeFirst marker t = t := by
  induction t with
  | nil => rfl
  | cons a t ih =>
    have hno : marker.isPrefixOf (a :: t) = false := by
      rw [Bool.eq_false_iff]
      intro hpre
      exact ht ((List.isPrefixOf_iff_prefix.mp hpre).subset hc)
    simp only [beforeFirst,hno,Bool.false_eq_true,if_false]
    rw [ih fun hmem => ht (List.mem_cons_of_mem a hmem)]

theorem parseDuplicateColumnName_executeError {sqlite : Sqlite} (hdoc : sqlite.Documented)
    (version : Int) {column : Text} (h : ∀ c ∈ column, isWhitespace c = false) :
    parseDuplicateColumnName (sqlite.executeError version (duplicateMarker ++ column)) =
      some column := by
  have hspace : ' ' ∉ column := fun hmem => absurd (h ' ' hmem) (by decide)
  have hmarker : ' ' ∈ duplicateMarker := by decide +kernel
  rw [parseDuplicateColumnName,hdoc.duplicate,Option.map_some,
    beforeFirst_of_not_mem hmarker hspace,trim_of_none h]

section

variable {sqlite : Sqlite} {sql : Text} {ts : List Text} {op : Text × Text}
  {ops : List (Text × Text)}

theorem Addition.column_spaceless {t : Text} (h : Addition op t) :
    ∀ c ∈ op.2, isWhitespace c = false := by
  obtain ⟨alter,table,name,add,column,target,rest,hwords,-,-,-,-,hmarks⟩ := h
  have htarget : ∀ c ∈ target, isWhitespace c = false := (hwords.mem (by simp)).2
  rcases hmarks with rfl | ⟨marks,-,rfl⟩
  · exact htarget
  · exact fun c hc => htarget c (by simp [hc])

theorem Script.column_spaceless (h : Script ts ops) :
    ∀ op ∈ ops, ∀ c ∈ op.2, isWhitespace c = false := by
  induction h with
  | nil => simp
  | blank _ _ ih => exact ih
  | addition hadd _ ih => exact List.forall_mem_cons.mpr ⟨hadd.column_spaceless,ih⟩

theorem statements_of_script (hdoc : sqlite.Documented) (h : Script ts ops)
    (hsemi : ∀ t ∈ ts, ';' ∉ t) (hspaced : ∀ t ∈ ts, Spaced t)
    (haccepted : ∀ t ∈ ts, Shaped t → sqlite.accepts t = true) :
    ts.flatMap sqlite.statements = ops.map fun op => .addColumn op.1 op.2 := by
  induction h with
  | nil => rfl
  | @blank t ts ops hblank h ih =>
    obtain ⟨-,hsemi⟩ := List.forall_mem_cons.mp hsemi
    obtain ⟨hfirst,hspaced⟩ := List.forall_mem_cons.mp hspaced
    obtain ⟨-,haccepted⟩ := List.forall_mem_cons.mp haccepted
    cases hblank with
    | blank hspace =>
      rw [List.flatMap_cons,hdoc.blank t fun c hc => hfirst c hc (hspace c hc),List.nil_append]
      exact ih hsemi hspaced haccepted
  | @addition t ts op ops hadd h ih =>
    obtain ⟨hcut,hsemi⟩ := List.forall_mem_cons.mp hsemi
    obtain ⟨hfirst,hspaced⟩ := List.forall_mem_cons.mp hspaced
    obtain ⟨hgood,haccepted⟩ := List.forall_mem_cons.mp haccepted
    rw [List.flatMap_cons,hdoc.addition op t hfirst hcut hadd (hgood hadd.shaped),List.map_cons,
      ih hsemi hspaced haccepted]
    rfl

theorem statements_of_writes (hdoc : sqlite.Documented) (hplain : sqlite.Plain sql)
    (h : Writes ops sql) : sqlite.statements sql = ops.map fun op => .addColumn op.1 op.2 := by
  obtain ⟨-,ts,hpieces,hscript⟩ := h
  have hreads := hplain ts hpieces hscript.shaped
  rw [hreads.cut]
  exact statements_of_script hdoc hscript hpieces.2.1 hreads.spaced hreads.accepted

theorem writes_of_parse (hplain : sqlite.Plain sql) (h : parseAddColumnStatements sql = some ops) :
    Writes ops sql := by
  have hpieces : Pieces sql ((stripSqlComments sql).splitOn ';') := pieces_iff.mpr rfl
  obtain ⟨hshaped,hwrites⟩ := writes_of_parseAddColumnStatements hpieces h
  exact hwrites (hplain _ hpieces hshaped).named

end

section

variable {sqlite : Sqlite} {m : Migration} {s : Schema} {table column duplicate : Text}
  {ops : List (Text × Text)}

theorem has_of_tableColumnExists (h : tableColumnExists s table column = true) :
    s.has table column = true := by
  rw [Schema.has,List.any_eq_true]
  exact ⟨column,List.contains_iff_mem.mp h,by simp [eqIgnoreAsciiCase]⟩

theorem execute_of_has (h : s.has table column = true) :
    (Statement.addColumn table column).execute sqlite s = .error (duplicateMarker ++ column) := by
  cases hfind : s.find? fun t => eqIgnoreAsciiCase t.1 table with
  | none => simp [Schema.has,Schema.columns,hfind] at h
  | some t => simp [Statement.execute,hfind,h]

theorem execute_of_present (h : m.present sqlite s = true) :
    ∃ table column rest, sqlite.statements m.sql = .addColumn table column :: rest ∧
      m.execute sqlite s = .error (duplicateMarker ++ column) := by
  unfold Migration.present at h
  cases hread : sqlite.statements m.sql with
  | nil => simp [hread] at h
  | cons statement rest =>
    rw [hread,List.all_cons,Bool.and_eq_true,Bool.and_eq_true] at h
    cases statement with
    | other text => exact absurd h.2.1 Bool.false_ne_true
    | addColumn table column =>
      refine ⟨table,column,rest,rfl,?_⟩
      rw [Migration.execute,hread,List.foldlM_cons,execute_of_has h.2.1]
      rfl

theorem spelled_of_writes (hdoc : sqlite.Documented) (hplain : sqlite.Plain m.sql)
    (h : Writes ops m.sql) :
    m.spelled sqlite s = ops.all fun op => tableColumnExists s op.1 op.2 := by
  rw [Migration.spelled,statements_of_writes hdoc hplain h,List.all_map]
  rfl

/-- The migration is written with the keyword COLUMN, and its columns as the database has them. -/
def Migration.readable (sqlite : Sqlite) (s : Schema) (m : Migration) : Prop :=
  (∃ ops, Writes ops m.sql) ∧ m.spelled sqlite s = true

theorem readable_of_addsExisting (hdoc : sqlite.Documented) (hplain : sqlite.Plain m.sql)
    (h : addsExisting duplicate s m = true) : m.readable sqlite s := by
  unfold addsExisting at h
  cases hparse : parseAddColumnStatements m.sql with
  | none => simp [hparse] at h
  | some ops =>
    rw [hparse,Bool.and_eq_true] at h
    have hwrites := writes_of_parse hplain hparse
    exact ⟨⟨ops,hwrites⟩,(spelled_of_writes hdoc hplain hwrites).trans h.2⟩

theorem present_of_readable (hdoc : sqlite.Documented) (hplain : sqlite.Plain m.sql)
    (h : m.readable sqlite s) : m.present sqlite s = true := by
  obtain ⟨⟨ops,hwrites⟩,hspelled⟩ := h
  rw [spelled_of_writes hdoc hplain hwrites,List.all_eq_true] at hspelled
  rw [Migration.present,statements_of_writes hdoc hplain hwrites,Bool.and_eq_true,List.all_map,
    List.all_eq_true]
  exact ⟨by simpa using hwrites.1,fun op hop => has_of_tableColumnExists (hspelled op hop)⟩

theorem addsExisting_of_readable (hdoc : sqlite.Documented) (hplain : sqlite.Plain m.sql)
    (h : m.readable sqlite s) {rest : List Statement}
    (hread : sqlite.statements m.sql = .addColumn table column :: rest) :
    addsExisting column s m = true ∧ ∀ c ∈ column, isWhitespace c = false := by
  obtain ⟨⟨ops,hwrites⟩,hspelled⟩ := h
  rw [spelled_of_writes hdoc hplain hwrites] at hspelled
  rw [statements_of_writes hdoc hplain hwrites] at hread
  cases ops with
  | nil => cases hread
  | cons op ops =>
    obtain ⟨rfl,rfl⟩ := Statement.addColumn.inj (List.cons.inj hread).1
    obtain ⟨-,ts,-,hscript⟩ := id hwrites
    refine ⟨?_,hscript.column_spaceless op List.mem_cons_self⟩
    simp only [addsExisting,parseAddColumnStatements_of_writes hwrites,List.any_cons,
      beq_self_eq_true,
      Bool.true_or,Bool.true_and]
    exact hspelled

end

section

variable {sqlite : Sqlite} {m : Migration} {ms rest : List Migration} {d : Database} {s : Schema}
  {sk : List (Migration × Schema)}

theorem pending_cons_applied (h : d.applied.contains m.version = true) :
    d.pending (m :: ms) = d.pending ms := by simp [Database.pending,List.contains_iff_mem.mp h]

theorem pending_cons_unapplied (h : d.applied.contains m.version = false) :
    d.pending (m :: ms) = m :: d.pending ms := by
  have hm : m.version ∉ d.applied := by simpa using h
  simp [Database.pending,hm]

theorem pending_record (h : m.version ∉ ms.map (·.version)) :
    ({ d with schema := s }.record m).pending ms = d.pending ms := by
  refine List.filter_congr fun m' hm' => ?_
  have hne : m'.version ≠ m.version := fun heq => h (List.mem_map.mpr ⟨m',hm',heq⟩)
  simp [Database.record,hne]

theorem run_cons_applied (h : d.applied.contains m.version = true) :
    run sqlite (m :: ms) d = run sqlite ms d := by rw [run,if_pos h]

theorem run_cons_ok (h : d.applied.contains m.version = false)
    (hexec : m.execute sqlite d.schema = .ok s) :
    run sqlite (m :: ms) d = run sqlite ms ({ d with schema := s }.record m) := by
  rw [run,h,if_neg Bool.false_ne_true,hexec]

theorem run_cons_error {cause : Text} (h : d.applied.contains m.version = false)
    (hexec : m.execute sqlite d.schema = .error cause) :
    run sqlite (m :: ms) d = (d,some (sqlite.executeError m.version cause)) := by
  rw [run,h,if_neg Bool.false_ne_true,hexec]

theorem applied_run (sqlite : Sqlite) (ms : List Migration) (d : Database) :
    ∀ v ∈ d.applied, v ∈ (run sqlite ms d).1.applied := by
  induction ms generalizing d with
  | nil => exact fun v hv => hv
  | cons m ms ih =>
    intro v hv
    by_cases happ : d.applied.contains m.version = true
    · rw [run_cons_applied happ]
      exact ih d v hv
    · have happ' : d.applied.contains m.version = false := by simpa using happ
      cases hexec : m.execute sqlite d.schema with
      | ok s =>
        rw [run_cons_ok happ' hexec]
        exact ih _ v (List.mem_append_left _ hv)
      | error cause =>
        rw [run_cons_error happ' hexec]
        exact hv

theorem run_of_skips_nil (hnd : (ms.map (·.version)).Nodup)
    (h : skips sqlite (d.pending ms) d.schema = some []) :
    (run sqlite ms d).2 = none ∧ ∀ m ∈ ms, m.version ∈ (run sqlite ms d).1.applied := by
  induction ms generalizing d with
  | nil => exact ⟨rfl,nofun⟩
  | cons m ms ih =>
    obtain ⟨hm,hnd⟩ := List.nodup_cons.mp hnd
    by_cases happ : d.applied.contains m.version = true
    · rw [pending_cons_applied happ] at h
      rw [run_cons_applied happ]
      obtain ⟨hend,hall⟩ := ih hnd h
      refine ⟨hend,fun m' hm' => ?_⟩
      rcases List.mem_cons.mp hm' with rfl | hm'
      · exact applied_run sqlite ms d _ (List.contains_iff_mem.mp happ)
      · exact hall m' hm'
    · have happ' : d.applied.contains m.version = false := by simpa using happ
      rw [pending_cons_unapplied happ',skips] at h
      split at h
      · simp at h
      cases hexec : m.execute sqlite d.schema with
      | error cause => simp [hexec] at h
      | ok s =>
        simp only [hexec] at h
        rw [run_cons_ok happ' hexec]
        obtain ⟨hend,hall⟩ := ih hnd (by rw [pending_record hm]; exact h)
        refine ⟨hend,fun m' hm' => ?_⟩
        rcases List.mem_cons.mp hm' with rfl | hm'
        · exact applied_run sqlite ms _ _ (List.mem_append_right _ List.mem_cons_self)
        · exact hall m' hm'

theorem run_of_skips_cons (hnd : (ms.map (·.version)).Nodup)
    (h : skips sqlite (d.pending ms) d.schema = some ((m,s) :: sk)) :
    m.present sqlite s = true ∧ (run sqlite ms d).1.schema = s ∧
      (∃ cause, m.execute sqlite s = .error cause ∧
        (run sqlite ms d).2 = some (sqlite.executeError m.version cause)) ∧
      ∃ post, (run sqlite ms d).1.pending ms = m :: post ∧ skips sqlite post s = some sk := by
  induction ms generalizing d with
  | nil => simp [Database.pending,skips] at h
  | cons m' ms ih =>
    obtain ⟨hm,hnd⟩ := List.nodup_cons.mp hnd
    by_cases happ : d.applied.contains m'.version = true
    · rw [pending_cons_applied happ] at h
      rw [run_cons_applied happ]
      obtain ⟨hpresent,hschema,herror,post,hpost,hrest⟩ := ih hnd h
      have happ' := applied_run sqlite ms d _ (List.contains_iff_mem.mp happ)
      rw [← pending_cons_applied (List.contains_iff_mem.mpr happ')] at hpost
      exact ⟨hpresent,hschema,herror,post,hpost,hrest⟩
    · have happ' : d.applied.contains m'.version = false := by simpa using happ
      rw [pending_cons_unapplied happ',skips] at h
      split at h
      next hpresent =>
        obtain ⟨sk',hsk,heq⟩ := Option.map_eq_some_iff.mp h
        cases heq
        obtain ⟨-,column,-,-,hexec⟩ := execute_of_present hpresent
        rw [run_cons_error happ' hexec]
        exact ⟨hpresent,rfl,⟨_,hexec,rfl⟩,_,pending_cons_unapplied happ',hsk⟩
      next =>
        cases hexec : m'.execute sqlite d.schema with
        | error cause => simp [hexec] at h
        | ok s' =>
          simp only [hexec] at h
          rw [run_cons_ok happ' hexec]
          obtain ⟨hpresent,hschema,herror,post,hpost,hrest⟩ :=
            ih hnd (by rw [pending_record hm]; exact h)
          have hrecorded := applied_run sqlite ms ({ d with schema := s' }.record m') m'.version
            (List.mem_append_right _ List.mem_cons_self)
          rw [← pending_cons_applied (List.contains_iff_mem.mpr hrecorded)] at hpost
          exact ⟨hpresent,hschema,herror,post,hpost,hrest⟩

theorem run_of_pending_error {cause : Text} (hpending : d.pending ms = m :: rest)
    (hexec : m.execute sqlite d.schema = .error cause) :
    (run sqlite ms d).2 = some (sqlite.executeError m.version cause) := by
  induction ms with
  | nil => simp [Database.pending] at hpending
  | cons m' ms ih =>
    by_cases happ : d.applied.contains m'.version = true
    · rw [pending_cons_applied happ] at hpending
      rw [run_cons_applied happ]
      exact ih hpending
    · have happ' : d.applied.contains m'.version = false := by simpa using happ
      rw [pending_cons_unapplied happ'] at hpending
      obtain ⟨rfl,-⟩ := List.cons.inj hpending
      rw [run_cons_error happ' hexec]

theorem pending_record_eq (j : Migration) :
    (d.record j).pending ms = (d.pending ms).filter fun a => a.version != j.version := by
  rw [Database.pending,Database.pending,List.filter_filter]
  refine List.filter_congr fun a _ => ?_
  rw [Bool.eq_iff_iff]
  simp [Database.record,and_comm]

theorem pending_record_first (hnd : (ms.map (·.version)).Nodup) (h : d.pending ms = m :: rest) :
    (d.record m).pending ms = rest ∧ ∀ j ∈ rest, j.version ≠ m.version := by
  have hsub : ((m :: rest).map (·.version)).Nodup := by
    rw [← h]
    exact hnd.sublist (List.filter_sublist.map _)
  have hne : ∀ j ∈ rest, j.version ≠ m.version := fun j hj heq =>
    (List.nodup_cons.mp hsub).1 (List.mem_map.mpr ⟨j,hj,heq⟩)
  refine ⟨?_,hne⟩
  rw [pending_record_eq,h,List.filter_cons_of_neg (by simp)]
  exact List.filter_eq_self.mpr fun j hj => by simpa using hne j hj

end

theorem reconcile_eq (migrations : List Migration) (duplicate : Text) (d : Database) :
    reconcileExistingAddColumnMigration migrations duplicate d =
      (d.pending migrations).find? (addsExisting duplicate d.schema) := by
  rw [Database.pending,List.find?_filter,reconcileExistingAddColumnMigration]
  congr 1
  funext m
  rw [Bool.eq_iff_iff]
  simp

section

variable {sqlite : Sqlite} {migrator : Migrator} {d : Database} {m : Migration} {s : Schema}
  {sk : List (Migration × Schema)}

/-- Every migration is recorded and the database is open. -/
def Opening.Complete (o : Opening) (migrator : Migrator) : Prop :=
  o.opened = true ∧ ∀ m ∈ migrator.migrations, m.version ∈ o.db.applied

theorem addsExisting_of_reconciled (h : (connect sqlite migrator d).reconciled = some (m,s)) :
    ∃ duplicate, addsExisting duplicate s m = true := by
  have hchosen {d' : Database} {duplicate : Text} {j : Migration}
      (hj : reconcileExistingAddColumnMigration migrator.migrations duplicate d' = some j)
      (heq : some (j,d'.schema) = some (m,s)) : ∃ duplicate, addsExisting duplicate s m = true := by
    obtain ⟨rfl,rfl⟩ := Prod.mk.inj (Option.some.inj heq)
    have hadds := List.find?_some hj
    exact ⟨duplicate,(Bool.and_eq_true_iff.mp hadds).2⟩
  unfold connect at h
  rcases hrun : run sqlite migrator.migrations d with ⟨d',e⟩
  rw [hrun] at h
  cases e with
  | none => cases h
  | some error =>
    cases hdup : parseDuplicateColumnName error with
    | none => simp [hdup] at h
    | some duplicate =>
      cases hj : reconcileExistingAddColumnMigration migrator.migrations duplicate d' with
      | none => simp [hdup,hj] at h
      | some j =>
        rcases hrun' : run sqlite migrator.migrations (d'.record j) with ⟨d'',e'⟩
        simp only [hdup,hj,hrun'] at h
        cases e' with
        | none => exact hchosen hj h
        | some _ => exact hchosen hj h

theorem connect_of_skips_nil
    (h : skips sqlite (d.pending migrator.migrations) d.schema = some []) :
    (connect sqlite migrator d).Complete migrator := by
  obtain ⟨hend,hall⟩ := run_of_skips_nil migrator.versions h
  rcases hrun : run sqlite migrator.migrations d with ⟨d',e⟩
  rw [hrun] at hend hall
  cases hend
  simp only [connect,hrun]
  exact ⟨rfl,hall⟩

theorem connect_of_skips_cons (hdoc : sqlite.Documented) (hplain : sqlite.Plain m.sql)
    (h : skips sqlite (d.pending migrator.migrations) d.schema = some ((m,s) :: sk)) :
    (connect sqlite migrator d).Complete migrator ↔ sk = [] ∧ m.readable sqlite s := by
  obtain ⟨hpresent,hschema,⟨cause,hexec,herror⟩,post,hpost,hrest⟩ :=
    run_of_skips_cons migrator.versions h
  obtain ⟨table,column,rest,hread,hcolumn⟩ := execute_of_present hpresent
  obtain rfl : cause = duplicateMarker ++ column := by
    rw [hexec] at hcolumn
    exact Except.error.inj hcolumn
  rcases hrun : run sqlite migrator.migrations d with ⟨d',e⟩
  rw [hrun] at hschema herror hpost
  subst hschema
  cases herror
  obtain ⟨hleft,hother⟩ := pending_record_first migrator.versions hpost
  simp only [connect,hrun,reconcile_eq,hpost]
  by_cases hreadable : m.readable sqlite d'.schema
  · -- the migration that failed is recorded, and what is left to skip decides
    obtain ⟨hadds,hspaceless⟩ := addsExisting_of_readable hdoc hplain hreadable hread
    simp only [parseDuplicateColumnName_executeError hdoc m.version hspaceless,
      List.find?_cons_of_pos hadds]
    cases sk with
    | nil =>
      obtain ⟨hend,hall⟩ := run_of_skips_nil migrator.versions (hleft.symm ▸ hrest)
      rcases hrun' : run sqlite migrator.migrations (d'.record m) with ⟨d'',e⟩
      rw [hrun'] at hend hall
      cases hend
      exact ⟨fun _ => ⟨rfl,hreadable⟩,fun _ => ⟨rfl,hall⟩⟩
    | cons p sk =>
      obtain ⟨-,-,⟨cause,-,herror⟩,-⟩ :=
        run_of_skips_cons migrator.versions (hleft.symm ▸ hrest)
      rcases hrun' : run sqlite migrator.migrations (d'.record m) with ⟨d'',e⟩
      rw [hrun'] at herror
      cases herror
      simp [Opening.Complete]
  · -- another migration may be recorded, but this one fails again
    cases parseDuplicateColumnName (sqlite.executeError m.version (duplicateMarker ++ column)) with
    | none => simp [Opening.Complete,hreadable]
    | some duplicate =>
      have hnot : ¬ addsExisting duplicate d'.schema m = true := fun hadds =>
        hreadable (readable_of_addsExisting hdoc hplain hadds)
      simp only [List.find?_cons_of_neg hnot]
      cases hfind : post.find? (addsExisting duplicate d'.schema) with
      | none => simp [Opening.Complete,hreadable]
      | some j =>
        have hj : j ∈ post := List.mem_of_find?_eq_some hfind
        have hfirst : (d'.record j).pending migrator.migrations =
            m :: post.filter fun a => a.version != j.version := by
          rw [pending_record_eq,hpost,List.filter_cons_of_pos]
          simpa using (hother j hj).symm
        have herror := run_of_pending_error (d := d'.record j) hfirst hexec
        rcases hrun' : run sqlite migrator.migrations (d'.record j) with ⟨d'',e⟩
        rw [hrun'] at herror
        cases herror
        simp [Opening.Complete,hrun',hreadable]

end

def droppingSql : Text :=
  "ALTER TABLE orders ADD COLUMN note text DEFAULT '\n-- '; DROP TABLE bonds;\n".toList

def samplePiece (t : Text) : List Statement :=
  match parseAddColumnStatement t with
  | some op => [.addColumn op.1 op.2]
  | none => if splitWhitespace t = [] then [] else [.other t]

/-- A SQLite that takes every statement, changes no column but by additions, and knows of one text
with a quotation. -/
def sampleSqlite : Sqlite where
  statements sql :=
    if sql = droppingSql then
      [.addColumn "orders".toList "note".toList,.other "DROP TABLE bonds".toList]
    else if ';' ∈ sql then ((stripSqlComments sql).splitOn ';').flatMap samplePiece
    else samplePiece sql
  accepts _ := true
  execute _ s := .ok s
  executeError _ cause := "error returned from database: (code: 1) ".toList ++ cause

theorem samplePiece_eq {t : Text} (h : ';' ∉ t) : sampleSqlite.statements t = samplePiece t := by
  have hne : t ≠ droppingSql := by
    rintro rfl
    exact h (by decide +kernel)
  simp only [sampleSqlite,if_neg hne,if_neg h]

theorem isWhitespace_of_isSqlSpace {c : Char} (h : isSqlSpace c = true) :
    isWhitespace c = true := by
  simp only [isSqlSpace,Bool.or_eq_true,beq_iff_eq] at h
  rcases h with (((rfl | rfl) | rfl) | rfl) | h
  · decide
  · decide
  · decide
  · decide
  · simp [isWhitespace,h]

theorem sampleSqlite_documented : sampleSqlite.Documented where
  blank t h := by
    have hsemi : ';' ∉ t := fun hmem => absurd (h ';' hmem) (by decide)
    have hwords : splitWhitespace t = [] :=
      splitWhitespace_blank fun c hc => isWhitespace_of_isSqlSpace (h c hc)
    rw [samplePiece_eq hsemi,samplePiece,parseAddColumnStatement,hwords]
    rfl
  addition op t _ hsemi hadd _ := by
    rw [samplePiece_eq hsemi,samplePiece,parseAddColumnStatement_of_addition hadd]
  duplicate _ _ := rfl

def isBare (t : Text) : Bool :=
  t.all (fun c => !isWhitespace c || isSqlSpace c) &&
    match splitWhitespace t with
    | _ :: _ :: name :: _ :: _ :: target :: _ => name.all isWordChar && target.all isWordChar
    | _ => true

theorem sampleSqlite_plain {sql : Text} (hne : sql ≠ droppingSql) (hsemi : ';' ∈ sql)
    (hbare : ((stripSqlComments sql).splitOn ';').all isBare = true) : sampleSqlite.Plain sql := by
  intro ts hpieces _
  rw [← pieces_iff.mp hpieces,List.all_eq_true] at hbare
  constructor
  · have hread : sampleSqlite.statements sql = ts.flatMap samplePiece := by
      simp only [sampleSqlite,if_neg hne,if_pos hsemi,← pieces_iff.mp hpieces]
    rw [hread]
    exact (List.flatMap_congr fun t ht => samplePiece_eq (hpieces.2.1 t ht)).symm
  · intro t ht c hc hspace
    have hall := List.all_eq_true.mp (Bool.and_eq_true_iff.mp (hbare t ht)).1 c hc
    simpa [hspace] using hall
  · exact fun _ _ _ => rfl
  · rintro t ht ⟨alter,table,name,add,column,target,rest,hwords,hkey⟩
    have hnames := (Bool.and_eq_true_iff.mp (hbare t ht)).2
    rw [splitWhitespace_of_words hwords] at hnames
    simp only [Bool.and_eq_true,List.all_eq_true] at hnames
    exact ⟨(name,target),alter,table,name,add,column,target,rest,hwords,hkey,
      ⟨(hwords.mem (by simp)).1,hnames.1,.inl rfl⟩,⟨(hwords.mem (by simp)).1,hnames.2,.inl rfl⟩⟩

def payoutInflight : Migration where
  version := 20260815120000
  sql := ("-- Track the payment hash of an in-flight buyer payout\n" ++
    "ALTER TABLE orders ADD COLUMN payout_payment_hash char(64);\n").toList

def payoutClaimedAt : Migration where
  version := 20260815120100
  sql := "ALTER TABLE orders ADD COLUMN payout_claimed_at integer;\n".toList

def payoutMigrations : Migrator where
  migrations := [payoutInflight,payoutClaimedAt]

theorem payoutMigrations_plain : ∀ m ∈ payoutMigrations.migrations, sampleSqlite.Plain m.sql := by
  have hcheck : ∀ m ∈ payoutMigrations.migrations, m.sql ≠ droppingSql ∧ ';' ∈ m.sql ∧
      ((stripSqlComments m.sql).splitOn ';').all isBare = true := by decide +kernel
  exact fun m hm => sampleSqlite_plain (hcheck m hm).1 (hcheck m hm).2.1 (hcheck m hm).2.2

def upgradedByHand : Database where
  schema := [("orders".toList,["id".toList,"payout_payment_hash".toList,
    "payout_claimed_at".toList])]
  applied := []

def halfUpgraded : Database where
  schema := [("orders".toList,["id".toList,"payout_payment_hash".toList])]
  applied := []

def droppingMigration : Migrator where
  migrations := [{ version := 1, sql := droppingSql }]

def noted : Database where
  schema := [("orders".toList,["id".toList,"note".toList]),("bonds".toList,["id".toList])]
  applied := []

end Mostro.Migrations
