import Xir.Impl.XirLab.Migrations
import Xir.Framework.Except
import Xir.Framework.Run

/-!
# Where the initialisation of a store may be cut

`initializeStore` runs from a durable database, and may be cut before each of
its operations. From the database of no script, of the first script or of both
(`Settled`) it ends with both. A cut between the first statement of a script and
the commit of its version leaves what it never gets past (`Stuck`):
`schema_migrations` without a row, or the first table of a script whose version
is not recorded. Nothing else is reachable (`recorded_of_run`).
-/

namespace Xir.Proof.Migrations

open Impl.XirLab.Migrations
open Prog (Exec Triple Outcome Answers)

/-- What a script creates. -/
def created (script : Script) : List Object :=
  script.filterMap fun
    | .pragma => none
    | .create o _ => some o

/-- The database of the first script. -/
def first : Database := ⟨created initialSql, [1]⟩

/-- The database of both scripts. -/
def complete : Database := ⟨created initialSql ++ created nativeStackSql, [1, 2]⟩

/-- Each script is applied with its version, or not at all. -/
def Settled (d : Database) : Prop := d = .empty ∨ d = first ∨ d = complete

/-- A script is begun, and its version is not recorded. -/
structure Stuck (d : Database) : Prop where
  table : d.hasTable "schema_migrations"
  begun : d.versions = [] ∨ d.versions = [1] ∧ d.hasTable "native_attempt_coordinates"

/-- One call of `initialize`, up to its end or to a cut: what is durable then. -/
inductive Session : Database → Outcome Error Unit → Database → Prop
  | run {d : Database} {o : Outcome Error Unit} {c : Connection} :
    Exec (Answers answer) initializeStore ⟨d, none⟩ o c → Session d o c.durable

/-- A call that is not cut succeeds, and the database is that of both scripts. -/
def Recovers (d : Database) : Prop := initializeStore.run answer ⟨d, none⟩ = (.ok (), ⟨complete, none⟩)

/-! ## Statements -/

theorem hasTable_of_execute {d d' : Database} {s : Statement} {name : String} (h : d.execute s = .ok d')
    (ht : d.hasTable name) : d'.hasTable name ∧ d'.versions = d.versions := by
  cases s with
  | pragma =>
    cases h
    exact ⟨ht, rfl⟩
  | create o on =>
    simp only [Database.execute] at h
    split at h
    · cases h
    · cases h
    · cases h
      exact ⟨by simp_all [Database.hasTable], rfl⟩

theorem hasTable_of_create {d d' : Database} {name : String} {on : Option String}
    (h : d.execute (.create ⟨.table, name⟩ on) = .ok d') : d'.hasTable name ∧ d'.versions = d.versions := by
  simp only [Database.execute] at h
  split at h
  · cases h
  · cases h
  · cases h
    exact ⟨by simp [Database.hasTable], rfl⟩

/-- A statement that applies makes no object a second time. -/
theorem nodup_of_execute {d d' : Database} {s : Statement} (hd : d.objects.Nodup) (h : d.execute s = .ok d') :
    d'.objects.Nodup := by
  cases s with
  | pragma =>
    cases h
    exact hd
  | create o on =>
    simp only [Database.execute] at h
    split at h
    · cases h
    · cases h
    · next hclash =>
      cases h
      have hnew : ∀ o' ∈ d.objects, ¬ (o'.name = o.name ∧ (o'.kind = .trigger ↔ o.kind = .trigger)) := by
        simpa [Database.clash] using hclash
      refine List.nodup_append.mpr ⟨hd, by simp, fun o' ho o'' ho' => ?_⟩
      rw [List.mem_singleton.mp ho']
      exact fun heq => hnew o' ho (heq ▸ ⟨rfl, Iff.rfl⟩)

theorem Stuck.execute {d d' : Database} {s : Statement} (hd : Stuck d) (h : d.execute s = .ok d') : Stuck d' := by
  obtain ⟨ht, hv⟩ := hasTable_of_execute h hd.table
  refine ⟨ht, ?_⟩
  rw [hv]
  exact hd.begun.imp_right fun hb => ⟨hb.1, (hasTable_of_execute h hb.2).1⟩

/-! ## Scripts -/

/-- What is cut leaves a database that is settled or stuck. -/
def Recorded (c : Connection) : Prop := Settled c.durable ∨ Stuck c.durable

section

variable {E : Error → Connection → Prop}

/-- The statements of a script that applies. -/
theorem forM_triple {script : Script} {d d' : Database} (applies : script.foldlM Database.execute d = .ok d')
    (hd : Stuck d) :
    Triple (Answers answer) Recorded E (· = ⟨d, none⟩) (script.forM fun s => call (.execute s))
      fun _ c => c = ⟨d', none⟩ := by
  induction script generalizing d with
  | nil =>
    cases applies
    exact .done (fun _ hc => hc ▸ .inr hd) fun _ hc => hc
  | cons s script ih =>
    obtain ⟨d₁, h₁, applies⟩ := foldlM_cons_eq_ok.mp applies
    refine Triple.answered (t := ⟨d₁, none⟩) (a := ()) (.inr hd) ?_ (ih applies (hd.execute h₁))
    simp [answer, Connection.change, Connection.view, Connection.set, h₁]

/-- A script and its version: it is stuck from its first table on, until the version is committed. -/
theorem script_triple {name : String} (rest : Script) {n : Nat} {c : Connection} {d' : Database}
    (hc : Recorded c) (hv : Settled c.view)
    (applies : (.create ⟨.table, name⟩ none :: rest).foldlM Database.execute c.view = .ok d')
    (begun : ∀ d, c.view.execute (.create ⟨.table, name⟩ none) = .ok d → Stuck d) (hd' : Stuck d')
    (hn : n ∉ d'.versions) :
    Triple (Answers answer) Recorded E (· = c)
      (executescript (.pragma :: .create ⟨.table, name⟩ none :: rest) >>= fun _ => call (.insertVersion n))
      fun _ c' => c' = ⟨d', some { d' with versions := d'.versions ++ [n] }⟩ := by
  refine .bind (Q := fun _ c' => c' = ⟨d', none⟩) ?_ fun _ => ?_
  · obtain ⟨d₁, h₁, applies⟩ := foldlM_cons_eq_ok.mp applies
    have hd₁ := begun d₁ h₁
    refine Triple.answered (t := ⟨c.view, none⟩) (a := ()) hc rfl ?_
    refine Triple.answered (t := ⟨c.view, none⟩) (a := ()) (.inl hv) rfl ?_
    refine Triple.answered (t := ⟨d₁, none⟩) (a := ()) (.inl hv) ?_ (forM_triple applies hd₁)
    simp only [answer, Connection.change, Connection.view, Option.getD_none] at h₁ ⊢
    rw [h₁]
    rfl
  · refine (Triple.asked (a := ()) (.inr hd') ?_ (.inr hd')).weaken (fun _ hc => hc) fun _ _ h => h.2
    simp [answer, Connection.change, Connection.view, Database.insertVersion, hd'.table, hn]

theorem readVersion_triple {C : Connection → Prop} {c : Connection} {n : Nat} (hc : C c)
    (hn : c.view.maxVersion = .ok (some n)) :
    Triple (Answers answer) C E (· = c) readVersion fun m c' => c' = c ∧ m = n :=
  Triple.answered (t := c) (a := some n) hc (by simp [answer, hn])
    (.done (fun _ h => h ▸ hc) fun _ h => ⟨h, rfl⟩)

end

/-! ## The two scripts -/

/-- The first script on the empty database. -/
theorem initial_applies :
    initialSql.tail.foldlM Database.execute .empty = .ok { first with versions := [] } := by
  decide +kernel

/-- The second one on what the first one leaves. -/
theorem nativeStack_applies :
    nativeStackSql.tail.foldlM Database.execute first = .ok { complete with versions := [1] } := by
  decide +kernel

/-- From its first table on, the first script is begun. -/
theorem stuck_of_initial {d : Database}
    (h : Database.empty.execute (.create ⟨.table, "schema_migrations"⟩ none) = .ok d) :
    Stuck d := by
  obtain ⟨ht, hv⟩ := hasTable_of_create h
  exact ⟨ht, .inl hv⟩

theorem stuck_first : Stuck { first with versions := [] } := by
  obtain ⟨d, h, happlies⟩ := foldlM_cons_eq_ok.mp initial_applies
  exact foldlM_keeps (fun hd h => hd.execute h) happlies (stuck_of_initial h)

theorem hasTable_first : first.hasTable "schema_migrations" := stuck_first.table

/-- So is the second one. -/
theorem stuck_of_nativeStack {d : Database}
    (h : first.execute (.create ⟨.table, "native_attempt_coordinates"⟩ none) = .ok d) : Stuck d := by
  obtain ⟨ht, hv⟩ := hasTable_of_create h
  exact ⟨(hasTable_of_execute h hasTable_first).1, .inr ⟨hv, ht⟩⟩

theorem stuck_complete : Stuck { complete with versions := [1] } := by
  obtain ⟨d, h, happlies⟩ := foldlM_cons_eq_ok.mp nativeStack_applies
  exact foldlM_keeps (fun hd h => hd.execute h) happlies (stuck_of_nativeStack h)

theorem hasTable_complete : complete.hasTable "schema_migrations" := stuck_complete.table

/-- Every object of the two scripts is made once. -/
theorem nodup_complete : complete.objects.Nodup := by
  have hfirst : ({ first with versions := [] } : Database).objects.Nodup :=
    foldlM_keeps (I := (·.objects.Nodup)) nodup_of_execute initial_applies (by simp [Database.empty])
  exact foldlM_keeps (I := (·.objects.Nodup)) nodup_of_execute nativeStack_applies hfirst

theorem maxVersion_first : first.maxVersion = .ok (some 1) := by
  rw [Database.maxVersion, if_pos hasTable_first]
  rfl

theorem maxVersion_complete : complete.maxVersion = .ok (some 2) := by
  rw [Database.maxVersion, if_pos hasTable_complete]
  rfl

theorem readMigration_second : readMigration (threeDigits 2 ++ "_native_stack.sql") = some nativeStackSql := by
  rw [readMigration, if_neg (by decide), if_pos (by decide)]

variable {E : Error → Connection → Prop}

theorem createInitial_triple :
    Triple (Answers answer) Recorded E (· = ⟨.empty, none⟩) createInitial fun _ c =>
      c = ⟨{ first with versions := [] }, some first⟩ := by
  refine Triple.answered (t := ⟨.empty, none⟩) (a := false) (.inl (.inl rfl)) rfl ?_
  exact script_triple (initialSql.drop 2) (.inl (.inl rfl)) (.inl rfl) initial_applies (fun _ => stuck_of_initial)
    stuck_first (by simp)

theorem createInitial_present {C : Connection → Prop} {c : Connection} (hc : C c)
    (ht : c.view.hasTable "schema_migrations") :
    Triple (Answers answer) C E (· = c) createInitial fun _ c' => c' = c := by
  refine Triple.answered (t := c) (a := true) hc (by simp [answer, ht]) ?_
  exact .done (fun _ h => h ▸ hc) fun _ h => h

theorem migrate_triple {c : Connection} (hc : Recorded c) (hv : c.view = first) :
    Triple (Answers answer) Recorded E (· = c) (migrate 2) fun _ c' =>
      c' = ⟨{ complete with versions := [1] }, some complete⟩ := by
  simp only [migrate, readMigration_second]
  have applies : nativeStackSql.tail.foldlM Database.execute c.view = .ok { complete with versions := [1] } := by
    rw [hv, nativeStack_applies]
  exact script_triple (nativeStackSql.drop 2) hc (.inr (.inl hv)) applies
    (fun _ h => stuck_of_nativeStack (hv ▸ h)) stuck_complete (by decide)

theorem upgrade_first {c : Connection} (hc : Recorded c) (hv : c.view = first) :
    Triple (Answers answer) Recorded E (· = c) upgrade fun _ c' =>
      c' = ⟨{ complete with versions := [1] }, some complete⟩ := by
  refine (readVersion_triple hc (n := 1) (by rw [hv, maxVersion_first])).bind_of fun m hm => ?_
  subst hm
  refine .bind (Q := fun _ c' => c' = ⟨{ complete with versions := [1] }, some complete⟩) ?_ fun _ => ?_
  · exact (migrate_triple hc hv).bind fun _ => .done (fun _ h => h ▸ .inr stuck_complete) fun _ h => h
  · let c' : Connection := ⟨{ complete with versions := [1] }, some complete⟩
    refine (readVersion_triple (c := c') (.inr stuck_complete) (n := 2) maxVersion_complete).bind_of fun m hm => ?_
    subst hm
    exact .done (fun _ h => h ▸ .inr stuck_complete) fun _ h => h

theorem upgrade_complete {c : Connection} (hc : Recorded c) (hv : c.view = complete) :
    Triple (Answers answer) Recorded E (· = c) upgrade fun _ c' => c' = c := by
  have h := readVersion_triple (E := E) hc (n := 2) (by rw [hv, maxVersion_complete])
  refine h.bind_of fun m hm => ?_
  subst hm
  refine h.bind_of fun m hm => ?_
  subst hm
  exact .done (fun _ h => h ▸ hc) fun _ h => h

/-- From a settled database the two parts leave both scripts to be committed. -/
theorem parts_triple {d : Database} (hd : Settled d) :
    Triple (Answers answer) Recorded E (· = ⟨d, none⟩) (createInitial >>= fun _ => upgrade) fun _ c =>
      Recorded c ∧ c.view = complete := by
  have hlast :
      ∀ c : Connection, c = ⟨{ complete with versions := [1] }, some complete⟩ → Recorded c ∧ c.view = complete :=
    fun _ hc => hc ▸ ⟨.inr stuck_complete, rfl⟩
  have hc : Recorded ⟨d, none⟩ := .inl hd
  obtain rfl | rfl | rfl := hd
  · refine createInitial_triple.bind fun _ => ?_
    exact (upgrade_first (.inr stuck_first) rfl).weaken (fun _ h => h) fun _ => hlast
  · refine (createInitial_present hc stuck_first.table).bind fun _ => ?_
    exact (upgrade_first hc rfl).weaken (fun _ h => h) fun _ => hlast
  · refine (createInitial_present hc stuck_complete.table).bind fun _ => ?_
    exact (upgrade_complete hc rfl).weaken (fun _ h => h) fun _ c h => h ▸ ⟨hc, rfl⟩

/-- The first statement of a script that was begun is refused. -/
theorem migrate_refused {d : Database} (ht : d.hasTable "native_attempt_coordinates") :
    Triple (Answers answer) (·.durable = d) (fun _ c => c.durable = d) (· = ⟨d, none⟩)
    (migrate 2) fun _ _ => False := by
  obtain ⟨o, ho⟩ : ∃ o, d.clash ⟨.table, "native_attempt_coordinates"⟩ = some o := by
    rw [← Option.isSome_iff_exists, Database.clash, List.find?_isSome]
    exact ⟨_, List.contains_iff_mem.mp ht, by simp⟩
  have he : d.execute (.create ⟨.table, "native_attempt_coordinates"⟩ none) = .error (.tableExists o) := by
    simp [Database.execute, ho]
  simp only [migrate, readMigration_second]
  refine .bind (Q := fun _ _ => False) ?_ fun _ => ⟨fun h => h.elim⟩
  refine Triple.answered (t := ⟨d, none⟩) (a := ()) rfl rfl ?_
  refine Triple.answered (t := ⟨d, none⟩) (a := ()) rfl rfl ?_
  refine Triple.refused (t := ⟨d, none⟩) (e := .tableExists o) rfl ?_ rfl rfl
  simp [answer, Connection.change, Connection.view, he]

theorem parts_refused {d : Database} (hd : Stuck d) :
    Triple (Answers answer) (·.durable = d) (fun _ c => c.durable = d) (· = ⟨d, none⟩)
      (createInitial >>= fun _ => upgrade) fun _ _ => False := by
  let c : Connection := ⟨d, none⟩
  refine (createInitial_present (C := (·.durable = d)) (c := c) rfl hd.table).bind fun _ => ?_
  obtain hv | ⟨hv, ht⟩ := hd.begun
  · have hmax : c.view.maxVersion = .ok none := by
      simp [c, Connection.view, Database.maxVersion, hd.table, hv]
    refine .bind (Q := fun _ _ => False) ?_ fun _ => ⟨fun h => h.elim⟩
    refine Triple.answered (i := Op.maxVersion) (h := answer) (t := c) (a := none) rfl (by simp [answer, hmax]) ?_
    exact .fail (fun _ h => h ▸ rfl) fun _ h => h ▸ rfl
  · have hmax : c.view.maxVersion = .ok (some 1) := by
      simp [c, Connection.view, Database.maxVersion, hd.table, hv]
    refine (readVersion_triple (C := (·.durable = d)) rfl hmax).bind_of fun m hm => ?_
    subst hm
    refine .bind (Q := fun _ _ => False) ?_ fun _ => ⟨fun h => h.elim⟩
    exact (migrate_refused ht).bind fun _ => ⟨fun h => h.elim⟩

/-! ## Calls -/

/-- A call on a settled database, up to a cut or to its end. -/
theorem settled_triple {d : Database} (hd : Settled d) :
    Triple (Answers answer) Recorded (fun _ _ => False) (· = ⟨d, none⟩) initializeStore fun _ c =>
      c = ⟨complete, none⟩ := by
  refine .bind (Triple.handle (F := fun _ _ => False) (parts_triple hd) fun _ => ⟨fun h => h.elim⟩) fun _ => ?_
  refine .of_states fun c hc => ?_
  refine (Triple.asked (a := ()) (t := ⟨complete, none⟩) hc.1 ?_ (.inl (.inr (.inr rfl)))).weaken
    (fun _ h => h) fun _ _ h => h.2
  simp [answer, hc.2]

/-- One on a stuck database fails, or is cut, and changes nothing. -/
theorem stuck_triple {d : Database} (hd : Stuck d) :
    Triple (Answers answer) (·.durable = d) (fun _ c => c.durable = d)
    (· = ⟨d, none⟩) initializeStore fun _ _ => False := by
  refine .bind (Q := fun _ _ => False) (Triple.handle (parts_refused hd) fun e => ?_) fun _ => ⟨fun h => h.elim⟩
  refine .of_states fun c hc => ?_
  exact Triple.answered (t := ⟨c.durable, none⟩) (a := ()) hc rfl (.fail (fun _ h => h ▸ hc) fun _ h => h ▸ hc)

theorem recovers_of_settled {d : Database} (hd : Settled d) : Recovers d := by
  obtain ⟨_, c, h, rfl⟩ := (settled_triple hd).run_ok rfl
  exact h

theorem not_recovers_of_stuck {d : Database} (hd : Stuck d) : ¬ Recovers d := by
  obtain ⟨e, c, h, -⟩ := (stuck_triple hd).run_error rfl
  rw [Recovers, h]
  simp

theorem Session.recorded {d d' : Database} {o : Outcome Error Unit} (h : Session d o d') (hd : Settled d ∨ Stuck d) :
    Settled d' ∨ Stuck d' := by
  obtain ⟨he⟩ := h
  obtain hd | hd := hd
  · have hr := (settled_triple hd).ends rfl he
    cases o with
    | returned => exact .inl (.inr (.inr (by rw [hr])))
    | failed => exact hr.elim
    | cut => exact hr
  · have hr := (stuck_triple hd).ends rfl he
    cases o with
    | returned => exact hr.elim
    | failed | cut => exact .inr (hr ▸ hd)

/-- Whatever calls were made, and wherever they were cut, the database is settled or stuck. -/
theorem recorded_of_run {d : Database} {os : List (Outcome Error Unit)} (run : Run Session .empty os d) :
    Settled d ∨ Stuck d :=
  run.inv (C := fun _ => True) (I := fun d => Settled d ∨ Stuck d) (fun _ h hs => hs.recorded h) (fun _ _ => trivial)
    (.inl (.inl rfl))

/-- After any number of calls, cut anywhere, the next call succeeds with both scripts, each of them once, if and only
if each script is in the database with its version, or not at all. -/
theorem initializeStore_recovers {d : Database} {os : List (Outcome Error Unit)} (run : Run Session .empty os d) :
    (Recovers d ↔ Settled d) ∧ Recovers .empty ∧ complete.objects.Nodup := by
  refine ⟨⟨fun h => (recorded_of_run run).resolve_right fun hs => not_recovers_of_stuck hs h, recovers_of_settled⟩,
    recovers_of_settled (.inl rfl), nodup_complete⟩

/-- The first call, cut after the first table of the first script: no call succeeds any more. -/
theorem initializeStore_not_recovers : ¬ ∀ d os, Run Session .empty os d → Recovers d := by
  intro h
  have cut : Exec (Answers answer) initializeStore ⟨.empty, none⟩ .cut ⟨⟨[⟨.table, "schema_migrations"⟩], []⟩, none⟩ :=
    .answer (.answer (.answer (.answer .cut)))
  exact not_recovers_of_stuck ⟨by simp [Database.hasTable], .inl rfl⟩ (h _ _ (.single (.run cut)))

/-- A call on the empty database, cut between the two scripts: the second `executescript` has
committed the first one. -/
theorem session_first : Session .empty .cut first := by
  let c : Connection := ⟨{ first with versions := [] }, some first⟩
  obtain ⟨_, _, hinitial, rfl⟩ := (createInitial_triple (E := fun _ _ => False)).run_ok rfl
  have hversion := readVersion_triple (E := fun _ _ => False) (C := fun _ => True) (c := c) trivial maxVersion_first
  obtain ⟨_, _, hread, rfl, rfl⟩ := hversion.run_ok rfl
  have hmigrate : Exec (Answers answer) (migrate 2) c .cut ⟨first, none⟩ := by
    simp only [migrate, readMigration_second]
    exact Exec.cut_bind (.answer .cut) _
  have hupgrade : Exec (Answers answer) upgrade c .cut ⟨first, none⟩ :=
    .bind_of_run hread ((hmigrate.cut_bind _).cut_bind _)
  exact .run (Exec.cut_bind (Exec.cut_handle (.bind_of_run hinitial hupgrade) _) _)

/-- A call that is cut before the first table of the first script, and one that is cut between the scripts. -/
theorem initializeStore_recovers_interrupted : Recovers .empty ∧ Recovers first := by
  have cut : Exec (Answers answer) initializeStore ⟨.empty, none⟩ .cut ⟨.empty, none⟩ :=
    .answer (.answer (.answer .cut))
  have before : Session .empty .cut .empty := .run cut
  have between := (Run.single before).snoc session_first
  exact ⟨(initializeStore_recovers (.single before)).1.mpr (.inl rfl),
    (initializeStore_recovers between).1.mpr (.inr (.inl rfl))⟩

end Xir.Proof.Migrations
