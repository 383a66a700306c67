import SheetSync.Proofs.Session.Rest
/-!
The order in which a watched store meets the writes of a run. Every write that a change called for
is logged once, in the order of the changes, and the others in the log were written when a workbook
was put back: `Accounted`. At a change of workbook, all writes for the workbook before stand in the
log before the call that turns the store, and none of them after it: `Accounted.switch`.
-/
namespace SheetSync

/-- Whether a request to change the workbook failed. -/
def Answer.IsFailedSwitch (a : Answer) : Prop :=
  (∃ target, a.request = .switch target) ∧ ∃ e, a.reply = .error e

/-- What the log of a watched store holds when a run has come to a session. -/
structure Accounted (s : Session) (L : Ledger) : Prop where
  watched : s.store.watch.isSome
  /-- Writes that were called for were carried out, in their order, or wait. -/
  planned : L.planned = L.carried.map Prod.snd ++ s.toLink.pending
  ordered : (L.carried.map Prod.fst).Pairwise (· < ·)
  logged : ∀ i w, (i, w) ∈ L.carried → s.store.calls[i]? = some (Store.callOf w)
  /-- No write is in the log but those, and what was written when a workbook was put back. -/
  writes : ∀ i call, s.store.calls[i]? = some call → call.isWrite →
    (∃ w, (i, w) ∈ L.carried) ∨ ∃ a ∈ L.answers, a.IsFailedSwitch ∧ a.start ≤ i ∧ i < a.stop

namespace Accounted

variable {s t : Session} {L K : Ledger}

/-- Only the log and what waits matter. -/
theorem congr (h : Accounted s L) (hwatch : t.store.watch.isSome)
    (hcalls : t.store.calls = s.store.calls) (hpending : t.toLink.pending = s.toLink.pending) :
    Accounted t L where
  watched := hwatch
  planned := by
    rw [hpending]
    exact h.planned
  ordered := h.ordered
  logged := by
    rw [hcalls]
    exact h.logged
  writes := by
    rw [hcalls]
    exact h.writes

theorem lt_length (h : Accounted s L) {i : Nat} {w : Write} (hi : (i, w) ∈ L.carried) :
    i < s.store.calls.length :=
  List.getElem?_eq_some_iff.mp (h.logged i w hi) |>.1

/-- What is logged later does not matter if it is no write, or a change of workbook failed
meanwhile. -/
theorem append (h : Accounted s L) (rest : List Call) (answers : List Answer)
    (hwatch : t.store.watch.isSome) (hcalls : t.store.calls = s.store.calls ++ rest)
    (hpending : t.toLink.pending = s.toLink.pending)
    (hrest : ∀ i call, rest[i]? = some call → call.isWrite → ∃ a ∈ L.answers ++ answers,
      a.IsFailedSwitch ∧ a.start ≤ s.store.calls.length + i ∧ s.store.calls.length + i < a.stop) :
    Accounted t { L with answers := L.answers ++ answers } where
  watched := hwatch
  planned := by
    rw [hpending]
    exact h.planned
  ordered := h.ordered
  logged i w hi := by
    rw [hcalls, List.getElem?_append_left (h.lt_length hi)]
    exact h.logged i w hi
  writes i call hi hwrite := by
    rw [hcalls] at hi
    rcases Nat.lt_or_ge i s.store.calls.length with hlt | hge
    · rw [List.getElem?_append_left hlt] at hi
      rcases h.writes i call hi hwrite with hcarried | ⟨a, ha, hanswer⟩
      · exact .inl hcarried
      · exact .inr ⟨a, List.mem_append_left _ ha, hanswer⟩
    · rw [List.getElem?_append_right hge] at hi
      have hlater := hrest _ call hi hwrite
      rw [Nat.add_sub_cancel' hge] at hlater
      exact .inr hlater

/-- A call that writes nothing does not matter. -/
theorem log (h : Accounted s L) {call : Call} (hcall : ¬ call.isWrite) :
    Accounted { s with store := s.store.logged call } L := by
  have happend := h.append (t := { s with store := s.store.logged call }) [call] [] ?_
    (Store.calls_logged call h.watched) rfl ?_
  · rwa [List.append_nil] at happend
  · show (s.store.watch.map _).isSome
    rw [Option.isSome_map]
    exact h.watched
  · rintro i c hi hwrite
    obtain rfl : c = call := by
      have hmem := List.mem_of_getElem? hi
      exact List.mem_singleton.mp hmem
    exact absurd hwrite hcall

theorem apply_act (h : Accounted s L) (a : DocumentAction) :
    Accounted ((Event.act a).apply s) ((Event.act a).note s L) where
  watched := by
    show (s.toLink.perform a).store.watch.isSome
    rw [Link.store_perform]
    exact h.watched
  planned := by
    show L.planned ++ s.toLink.planned a = L.carried.map Prod.snd ++ (s.toLink.perform a).pending
    rw [Link.pending_perform, h.planned, List.append_assoc]
  ordered := h.ordered
  logged := by
    show ∀ i w, (i, w) ∈ L.carried → (s.toLink.perform a).store.calls[i]? = _
    rw [Link.store_perform]
    exact h.logged
  writes := by
    show ∀ i call, (s.toLink.perform a).store.calls[i]? = some call → _
    rw [Link.store_perform]
    exact h.writes

/-- The first write that waits is noted where its call is logged. -/
theorem carried (h : Accounted s L) {w : Write} {ws : List Write} (hwatch : t.store.watch.isSome)
    (hcalls : t.store.calls = s.store.calls ++ [Store.callOf w])
    (hwaiting : s.toLink.pending = w :: ws) (hpending : t.toLink.pending = ws) :
    Accounted t { L with carried := L.carried ++ [(s.store.calls.length, w)] } where
  watched := hwatch
  planned := by
    rw [hpending, h.planned, hwaiting]
    simp
  ordered := by
    rw [List.map_append]
    -- every write noted before stands in the log, so at a smaller index
    refine List.pairwise_append.mpr ⟨h.ordered, List.pairwise_singleton _ _, ?_⟩
    intro i hi j hj
    obtain ⟨⟨_, v⟩, hv, rfl⟩ := List.mem_map.mp hi
    obtain rfl : j = s.store.calls.length := List.mem_singleton.mp hj
    exact h.lt_length hv
  logged i v hv := by
    rw [hcalls]
    rcases List.mem_append.mp hv with hv | hv
    · rw [List.getElem?_append_left (h.lt_length hv)]
      exact h.logged i v hv
    · obtain ⟨rfl, rfl⟩ := Prod.mk.inj (List.mem_singleton.mp hv)
      exact List.getElem?_concat_length
  writes i call hi hwrite := by
    rw [hcalls] at hi
    rcases Nat.lt_or_ge i s.store.calls.length with hlt | hge
    · rw [List.getElem?_append_left hlt] at hi
      refine (h.writes i call hi hwrite).imp_left ?_
      rintro ⟨v, hv⟩
      exact ⟨v, List.mem_append_left _ hv⟩
    · rw [List.getElem?_append_right hge] at hi
      -- the one new call is that of the write which was carried out
      have hzero := List.getElem?_eq_some_iff.mp hi |>.1
      obtain rfl : i = s.store.calls.length := by
        rw [List.length_singleton] at hzero
        omega
      exact .inl ⟨w, List.mem_append_right _ List.mem_cons_self⟩

theorem apply_carry (h : Accounted s L) (hs : s.Wired) :
    Accounted (Event.carry.apply s) (Event.carry.note s L) := by
  have hpending : s.toLink.carry.pending = s.toLink.pending.tail := Link.pending_carry hs.plain
  have hstore := Link.store_carry s.toLink
  have hwatch : (Event.carry.apply s).store.watch.isSome :=
    (Session.isSome_watch_apply s .carry).trans h.watched
  cases hwaiting : s.toLink.pending with
  | nil =>
    rw [hwaiting] at hpending hstore
    have hnote : Event.carry.note s L = L := by simp only [Event.note, hwaiting]
    rw [hnote]
    exact h.congr hwatch (congrArg Store.calls hstore) (hpending.trans hwaiting.symm)
  | cons w ws =>
    rw [hwaiting] at hpending hstore
    have hnote : Event.carry.note s L =
        { L with carried := L.carried ++ [(s.store.calls.length, w)] } := by
      simp only [Event.note, hwaiting]
    rw [hnote]
    refine h.carried hwatch ?_ hwaiting hpending
    show s.toLink.carry.store.calls = _
    rw [hstore]
    exact Store.calls_perform_apply h.watched w

/-- Nothing leaves the log. -/
theorem length_calls_apply (hwatch : s.store.watch.isSome) (e : Event) :
    s.store.calls.length ≤ (e.apply s).store.calls.length := by
  cases e with
  | act a =>
    show _ ≤ (s.toLink.perform a).store.calls.length
    exact Nat.le_of_eq (congrArg (·.calls.length) (Link.store_perform s.toLink a).symm)
  | carry =>
    show _ ≤ s.toLink.carry.store.calls.length
    rw [Link.store_carry]
    cases s.toLink.pending with
    | nil => exact Nat.le_refl _
    | cons w ws =>
      have hcalls := Store.calls_perform_apply hwatch w
      exact Nat.le.intro (congrArg List.length hcalls |>.trans List.length_append).symm
  | store workbook files switches =>
    exact Nat.le_of_eq (congrArg List.length
      (Event.calls_apply_store workbook files switches).symm)
  | _ => exact Nat.le_refl _

theorem apply (h : Accounted s L) (hs : s.Wired) (e : Event) :
    Accounted (e.apply s) (e.note s L) := by
  cases e with
  | act a => exact h.apply_act a
  | carry => exact h.apply_carry hs
  | store workbook files switches =>
    refine h.congr ?_ (Event.calls_apply_store workbook files switches) rfl
    show (s.store.watch.map _).isSome
    rw [Option.isSome_map]
    exact h.watched
  | _ => exact h.congr h.watched rfl rfl

end Accounted

/-! ## Requests to save -/

theorem survivesSaving_accounted {may : Session → Event → Prop} :
    Session.SurvivesSaving may fun s L => s.Wired ∧ Accounted s L where
  event s L e _ hs := ⟨hs.1.apply e, hs.2.apply hs.1 e⟩
  phase _ hs := ⟨hs.1.congr rfl rfl rfl, hs.2.congr hs.2.watched rfl rfl⟩
  busy _ hs := ⟨hs.1.congr rfl rfl rfl, hs.2.congr hs.2.watched rfl rfl⟩
  prompts _ hs := ⟨hs.1.congr rfl rfl rfl, hs.2.congr hs.2.watched rfl rfl⟩
  services _ hs := ⟨hs.1.congr rfl rfl rfl, hs.2.congr hs.2.watched rfl rfl⟩
  log _ hs := ⟨hs.1.congr rfl rfl rfl, hs.2.log Bool.false_ne_true⟩
  spend {s L} hs := by
    refine ⟨hs.1.congr rfl rfl rfl, hs.2.congr ?_ (Store.calls_spent s.store) rfl⟩
    show (s.store.watch.map _).isSome
    rw [Option.isSome_map]
    exact hs.2.watched
  files _ hs := ⟨hs.1.congr rfl rfl rfl, hs.2.congr hs.2.watched rfl rfl⟩
  path _ hs := ⟨hs.1.congr rfl rfl rfl, hs.2.congr hs.2.watched rfl rfl⟩
  saved {s L} hs := by
    -- to mark a document as saved calls for no write
    have hsaved := hs.2.apply_act .markSaved
    have hnote : (Event.act .markSaved).note s L = L := by
      show { L with planned := L.planned ++ s.toLink.planned .markSaved } = L
      rw [show s.toLink.planned .markSaved = [] from rfl, List.append_nil]
    rw [hnote] at hsaved
    exact ⟨hs.1.apply_act .markSaved, hsaved⟩
  rename _ _ _ _ hs := ⟨hs.1.congr rfl rfl rfl, hs.2.congr hs.2.watched rfl rfl⟩

/-! ## Changes of workbook -/

/-- The calls by which a copy is written over a workbook. -/
def Call.isReplay : Call → Bool
  | .usedRange _ | .setRange _ _ => true
  | _ => false

/-- How the log of a store goes on when the store is turned to a target: without any write, unless
the change fails and the workbook before is put back, with the copy of the document over it. -/
def Crossed (target : Target) (previous : Option ActiveWorkbook) (reply : Except SyncError Reply)
    (before after : List Call) : Prop :=
  ∃ load back, after = before ++ [target.call] ++ load ++ back ∧ (∀ c ∈ load, ¬ c.isWrite) ∧
    (back = [] ∨ ∃ w more e, previous = some w ∧ reply = .error e ∧
      back = w.source.call :: more ∧ ∀ c ∈ more, c.isReplay)

namespace Session

variable {may : Session → Event → Prop} {s t m : Session} {L K M : Ledger}
  {calls : List Call} {allowed : Call → Prop}

/-- The log of a watched store that has grown by calls of some kinds. -/
structure Follows (calls : List Call) (allowed : Call → Prop) (store : Store) : Prop where
  watched : store.watch.isSome
  calls : ∃ rest, store.calls = calls ++ rest ∧ ∀ c ∈ rest, allowed c

namespace Follows

variable {store store' : Store}

theorem congr (h : Follows calls allowed store) (hwatch : store'.watch.isSome = store.watch.isSome)
    (hcalls : store'.calls = store.calls) : Follows calls allowed store' where
  watched := hwatch.trans h.watched
  calls := by
    rw [hcalls]
    exact h.calls

theorem log (h : Follows calls allowed store) (call : Call) (hcall : allowed call) :
    Follows calls allowed (store.logged call) where
  watched := Option.isSome_map.trans h.watched
  calls := by
    obtain ⟨rest, hrest, hallowed⟩ := h.calls
    refine ⟨rest ++ [call], ?_, ?_⟩
    · rw [Store.calls_logged call h.watched, hrest, List.append_assoc]
    · intro c hc
      rcases List.mem_append.mp hc with hc | hc
      · exact hallowed c hc
      · rw [List.mem_singleton.mp hc]
        exact hcall

/-- The log after one more call, from which on it is to grow by calls of other kinds. -/
theorem next (hwatch : store.watch.isSome) (call : Call) :
    Follows (store.calls ++ [call]) allowed (store.logged call) where
  watched := Option.isSome_map.trans hwatch
  calls := by
    refine ⟨[], ?_, fun _ hc => by cases hc⟩
    rw [List.append_nil]
    exact Store.calls_logged call hwatch

theorem apply (h : Follows calls allowed s.store) (hs : Apart m s) (e : Event) :
    Follows calls allowed (e.apply s).store := by
  rcases Event.store_apply hs.waiting e with hstore | ⟨workbook, files, switches, rfl⟩
  · rw [hstore]
    exact h
  · exact h.congr Option.isSome_map (Event.calls_apply_store workbook files switches)

end Follows

theorem survivesSwap_follows (m : Session) (M : Ledger) (calls : List Call)
    (allowed : Call → Prop) :
    SurvivesSwap may allowed fun s L => Apart m s ∧ L = M ∧ Follows calls allowed s.store := by
  refine .and_apart m ?_ ?_ ?_ ?_ ?_ ?_
  · rintro s L e - hs ⟨rfl, hfollows⟩
    exact ⟨Event.note_eq_self hs.wired hs.sync e L, hfollows.apply hs e⟩
  · rintro s L call hcall ⟨hL, hfollows⟩
    exact ⟨hL, hfollows.log call hcall⟩
  · rintro s L ⟨hL, hfollows⟩
    exact ⟨hL, hfollows.congr Option.isSome_map (Store.calls_spent s.store)⟩
  · rintro s L p hs
    exact hs
  · rintro s L caches hs
    exact hs
  · rintro s L hs
    exact hs

/-- Without a restore nothing follows the call that turns the store but reads. -/
theorem Follows.crossed {target : Target} {store : Store}
    (h : Follows (calls ++ [target.call]) (fun call => ¬ call.isWrite) store)
    (previous : Option ActiveWorkbook) (r : Except SyncError Reply) :
    Crossed target previous r calls store.calls := by
  obtain ⟨load, hload, hnone⟩ := h.calls
  exact ⟨load, [], by rw [List.append_nil, hload], hnone, .inl rfl⟩

/-- With a restore, whether it fails or not, its own calls come last. -/
theorem Follows.crossed_restored {target : Target} {store store' : Store} {w : ActiveWorkbook}
    (h : Follows (calls ++ [target.call]) (fun call => ¬ call.isWrite) store)
    (h' : Follows (store.calls ++ [w.source.call]) (fun call => call.isReplay) store')
    (e : SyncError) : Crossed target (some w) (.error e) calls store'.calls := by
  obtain ⟨load, hload, hnone⟩ := h.calls
  obtain ⟨more, hmore, hreplay⟩ := h'.calls
  refine ⟨load, w.source.call :: more, ?_, hnone, .inr ⟨w, more, e, rfl, rfl, rfl, hreplay⟩⟩
  rw [hmore, hload]
  simp

/-- A restore is followed by its own calls. -/
theorem achieves_restoreStore_follows {w : ActiveWorkbook} (hs : Apart m s)
    (hwatch : s.store.watch.isSome) :
    Achieves (Rely may) (restoreStore w) { s with phase := .rollingBack } L fun _ t K =>
      K = L ∧ t.toLink.pending = [] ∧
        Follows (s.store.calls ++ [w.source.call]) (fun call => call.isReplay) t.store := by
  refine Achieves.imp (achieves_restoreStore
    (survivesSwap_follows m L (s.store.calls ++ [w.source.call]) fun call => call.isReplay)
    ?_ ?_ ?_ ⟨(hs.withPhase rfl).withStore _, rfl, .next hwatch _⟩) ?_
  · rintro s L b ⟨hs, hL, hfollows⟩
    exact ⟨hs.withStore _, hL, hfollows.congr rfl rfl⟩
  · exact fun _ => rfl
  · exact fun _ _ => rfl
  · rintro _ t K ⟨ht, rfl, hfollows⟩
    exact ⟨rfl, Queue.actions_eq_nil.mpr ht.waiting, hfollows⟩

/-- From its turning point on, a change of workbook calls for no writes and carries none out. -/
theorem achieves_swap_crossed {target : Target} (hm : m.Wired) (hidle : m.isIdle)
    (hphase : m.phase = .draining ∨ m.phase = .beforeClose) (hwatch : m.store.watch.isSome)
    (previous : Option ActiveWorkbook) :
    Achieves (Rely may) (swap target previous) m M fun r t L =>
      L = M ∧ t.toLink.pending = [] ∧ t.store.watch.isSome ∧
        Crossed target previous r m.store.calls t.store.calls := by
  have hread : ∀ call : Call, call.isRead → ¬ call.isWrite := by
    intro call hcall
    cases call <;> simp_all [Call.isRead, Call.isWrite]
  have hI : SurvivesSwap may (fun call => ¬ call.isWrite) fun s L => Apart m s ∧ L = M ∧
      Follows (m.store.calls ++ [target.call]) (fun call => ¬ call.isWrite) s.store :=
    survivesSwap_follows m M _ _
  refine achieves_swap hphase _ (fun _ => _) (fun _ r _ => AnyContent r) hI
    ⟨.start hm hidle _, rfl, .next hwatch target.call⟩ ?_ ?_ (fun _ => hI)
    (fun _ => Bool.false_ne_true) ?_ ?_ ?_
  · rintro fault s L - ⟨hs, rfl, hfollows⟩
    have hpending : s.toLink.pending = [] := Queue.actions_eq_nil.mpr hs.waiting
    cases previous with
    | none =>
      exact achieves_recover_none false
        ⟨_, rfl, rfl, hpending, hfollows.watched, hfollows.crossed _ _⟩
    | some w =>
      exact achieves_recover_unturned
        ⟨_, rfl, rfl, hpending, hfollows.watched, hfollows.crossed _ _⟩
  · rintro d s _ L ⟨hs, rfl, hfollows⟩ (⟨b, rfl, -⟩ | ⟨rfl, -⟩)
    · exact ⟨hs.withStore _, rfl, hfollows.congr rfl rfl⟩
    · exact ⟨hs, rfl, hfollows⟩
  · intro d s L hs hloading
    exact achieves_loadContent hI hread hs hloading
  · rintro d e s L ⟨hs, rfl, hfollows⟩ -
    cases previous with
    | none =>
      have hpending : s.toLink.pending = [] := Queue.actions_eq_nil.mpr hs.waiting
      exact achieves_recover_none true
        ⟨_, rfl, rfl, hpending, hfollows.watched, hfollows.crossed _ _⟩
    | some w =>
      refine achieves_recover_turned
        (Achieves.imp (achieves_restoreStore_follows hs hfollows.watched) ?_)
      rintro (e' | _) t K ⟨rfl, hnone, hback⟩
      · exact ⟨_, rfl, rfl, hnone, hback.watched, hfollows.crossed_restored hback _⟩
      · exact ⟨_, rfl, rfl, hnone, hback.watched, hfollows.crossed_restored hback _⟩
  · rintro d s L content t ⟨hs, rfl, hfollows⟩ - ⟨signature, -, ht⟩
    have hpending := ht.pending hs.wired hs.sync
    obtain ⟨id, caches, tokens, -, -, rfl⟩ := ht
    have hlogged := (hfollows.log .listNames Bool.false_ne_true).log .listTables
      Bool.false_ne_true
    exact ⟨rfl, hpending, hlogged.watched, hlogged.crossed _ _⟩

end Session

/-! ## Runs -/

section Runs

variable {may : Session → Event → Prop} {s t m : Session} {L K M : Ledger}

/-- A request that logs no write is noted. -/
theorem Accounted.answered (h : Accounted s L) (r : Request) (reply : Except SyncError Reply)
    (u t : Session) : Accounted s (L.answered r reply u t) :=
  h.append [] _ h.watched (List.append_nil _).symm rfl fun i call hi => by cases hi

theorem survivesClosing_accounted (n : Nat) : Session.SurvivesClosing may fun s L =>
    s.Wired ∧ Accounted s L ∧ n ≤ s.store.calls.length where
  event _ _ e _ hs := ⟨hs.1.apply e, hs.2.1.apply hs.1 e,
    Nat.le_trans hs.2.2 (Accounted.length_calls_apply hs.2.1.watched e)⟩
  phase _ hs := ⟨hs.1.congr rfl rfl rfl, hs.2.1.congr hs.2.1.watched rfl rfl, hs.2.2⟩
  hook _ _ hs := ⟨hs.1.congr rfl rfl rfl, hs.2.1.congr hs.2.1.watched rfl rfl, hs.2.2⟩

/-- The writes that a change of workbook logs after its turning point belong to its own answer. -/
theorem Accounted.crossed {target : Target} {previous : Option ActiveWorkbook}
    {reply : Except SyncError Reply} (hm : Accounted m M) (hidle : m.isIdle)
    (hstart : s.store.calls.length ≤ m.store.calls.length) (hpending : t.toLink.pending = [])
    (hwatch : t.store.watch.isSome)
    (hcrossed : Crossed target previous reply m.store.calls t.store.calls) :
    Accounted t (M.answered (.switch target) reply s t) := by
  obtain ⟨load, back, hcalls, hload, hback⟩ := hcrossed
  have hcalls' : t.store.calls = m.store.calls ++ ([target.call] ++ load ++ back) := by
    rw [hcalls]
    simp only [List.append_assoc]
  have hnone : m.toLink.pending = [] := Queue.actions_eq_nil.mpr (Queue.isIdle_iff.mp hidle)
  -- a write among the new calls can only come from the restore, which is part of this answer
  refine hm.append _ _ hwatch hcalls' (hpending.trans hnone.symm) fun i call hi hwrite => ?_
  have hlength := List.getElem?_eq_some_iff.mp hi |>.1
  have hmem := List.mem_of_getElem? hi
  rcases List.mem_append.mp hmem with hmem | hmem
  · rcases List.mem_append.mp hmem with hmem | hmem
    · rw [List.mem_singleton.mp hmem] at hwrite
      cases target <;> cases hwrite
    · exact absurd hwrite (hload call hmem)
  · rcases hback with rfl | ⟨w, more, e, -, rfl, -⟩
    · cases hmem
    · refine ⟨_, List.mem_append_right _ List.mem_cons_self, ⟨⟨target, rfl⟩, e, rfl⟩, ?_, ?_⟩
      · exact Nat.le_trans hstart (Nat.le_add_right _ _)
      · show m.store.calls.length + i < t.store.calls.length
        rw [hcalls', List.length_append]
        exact Nat.add_lt_add_left hlength _

/-- A change of workbook is declined, or it passes through a state in which all writes that were
called for are carried out, and logs no more of them. -/
theorem Accounted.switch {target : Target} {reply : Except SyncError Reply} (hs : s.AtRest)
    (hacc : Accounted s L)
    (h : Activity.Runs (Session.Rely may) (Session.request (.switch target)).run s L reply t K) :
    (reply = .ok .declined ∧ K = L ∧ ∃ prompts, t = { s with prompts }) ∨
      ∃ m, Session.TurnsAt may target s L reply t K m K ∧ m.isIdle ∧ Accounted m K ∧
        s.store.calls.length ≤ m.store.calls.length ∧ t.toLink.pending = [] ∧
        t.store.watch.isSome ∧ Crossed target s.active reply m.store.calls t.store.calls := by
  rcases Session.exists_turnsAt hs.isBusy hs.stable.phase_eq h with hdeclined | ⟨m, M, hturn⟩
  · exact .inl hdeclined
  · obtain ⟨hidle, hphase, -, hwired, hm, hlength⟩ := hturn.closing
      (survivesClosing_accounted s.store.calls.length)
      fun prompts => ⟨hs.wired.congr rfl rfl rfl, hacc.congr hacc.watched rfl rfl, Nat.le_refl _⟩
    obtain ⟨u, ⟨rfl, hpending, hwatch, hcrossed⟩, rfl⟩ :=
      hturn.ends (Session.achieves_swap_crossed hwired hidle hphase hm.watched s.active)
    exact .inr ⟨m, hturn, hidle, hm, hlength, hpending, hwatch, hcrossed⟩

theorem Session.IsNew.accounted {s₀ : Session} (hnew : s₀.IsNew) (hwatch : s₀.store.watch.isSome)
    (hcalls : s₀.store.calls = []) : Accounted s₀ {} where
  watched := hwatch
  planned := by
    have hidle := hnew.wired.idle (hnew.atRest.sync_eq_none (by rw [hnew.eq]))
    exact (Queue.actions_eq_nil.mpr hidle).symm
  ordered := .nil
  logged _ _ hi := by cases hi
  writes i call hi := by
    rw [hcalls] at hi
    cases hi

/-- All along a run, what a store logs is accounted for. -/
theorem Run.accounted {s₀ : Session} (hnew : s₀.IsNew) (hwatch : s₀.store.watch.isSome)
    (hcalls : s₀.store.calls = []) (hrun : Run may s₀ s L) : Accounted s L := by
  refine Run.induct hnew.atRest (hnew.accounted hwatch hcalls) ?_ ?_ ?_ hrun
  · intro s L e hs _ hacc
    exact hacc.apply hs.wired e
  · intro s L r reply t K hr hs hacc hreq
    obtain ⟨-, -, ht⟩ := Session.achieves_saveRequest survivesSaving_accounted hr hs
      ⟨hs.wired, hacc⟩ reply t K hreq
    exact ht.answered r reply s t
  · intro s L target reply t K hs hacc hreq
    rcases hacc.switch hs hreq with ⟨-, rfl, prompts, rfl⟩ | ⟨m, -, hidle, hm, hlength, hpending,
      hwatch, hcrossed⟩
    · exact (hacc.answered _ _ s _).congr hacc.watched rfl rfl
    · exact hm.crossed hidle hlength hpending hwatch hcrossed

/-- No write crosses a change of workbook. Where the store is to turn, in the state `m`, nothing
waits, every write that the changes so far called for is carried out and logged once, in its order,
and before the call that turns the store. From there until the session is active or idle no write is
called for or carried out, and none is logged but those that put the workbook before back. -/
theorem switch_separates_writes {s₀ : Session} {target : Target} {reply : Except SyncError Reply}
    (hnew : s₀.IsNew) (hwatch : s₀.store.watch.isSome) (hcalls : s₀.store.calls = [])
    (hrun : Run may s₀ s L)
    (h : Activity.Runs (Session.Rely may) (Session.request (.switch target)).run s L reply t K) :
    (reply = .ok .declined ∧ t.store = s.store) ∨
      ∃ m M, Session.TurnsAt may target s L reply t K m M ∧ m.isIdle ∧ Accounted m M ∧
        M.planned = M.carried.map Prod.snd ∧ K = M ∧ (t.phase = .idle ∨ t.phase = .active) ∧
        Crossed target s.active reply m.store.calls t.store.calls := by
  have hs := hrun.atRest hnew.atRest
  have hphase := (hs.request _ h).stable.phase_eq
  rcases (hrun.accounted hnew hwatch hcalls).switch hs h with ⟨rfl, -, prompts, rfl⟩ |
    ⟨m, hturn, hidle, hm, -, -, -, hcrossed⟩
  · exact .inl ⟨rfl, rfl⟩
  · have hnone : m.toLink.pending = [] := Queue.actions_eq_nil.mpr (Queue.isIdle_iff.mp hidle)
    have hplanned := hm.planned
    rw [hnone, List.append_nil] at hplanned
    exact .inr ⟨m, K, hturn, hidle, hm, hplanned, rfl, hphase, hcrossed⟩

theorem switch_separates_change :
    ∃ s L t K m, Run (fun _ _ => True) (.on { watch := some {} }) s L ∧
      Session.TurnsAt (fun _ _ => True) .blank s L (.ok (.completed Workbook.blank.descriptor)) t K
        m K ∧
      K.planned.length = 1 ∧ K.planned = K.carried.map Prod.snd ∧ Accounted m K := by
  have hends : ((Session.request (.switch .blank)).run
      (.on { watch := some {} })).end?.any fun first =>
      (first.2.toLink.planned oneChange).length == 1 &&
        ((Session.request (.switch .blank)).run
          (Event.carry.apply ((Event.act oneChange).apply first.2))).end?.any fun second =>
            second.1.toOption == some (.completed Workbook.blank.descriptor) := by
    decide +kernel
  obtain ⟨⟨r, s⟩, hs, hends⟩ := (Option.any_eq_true _ _).mp hends
  obtain ⟨hplanned, hends⟩ := Bool.and_eq_true_iff.mp hends
  obtain ⟨⟨reply, t⟩, ht, hreply⟩ := (Option.any_eq_true _ _).mp hends
  obtain rfl : reply = .ok (.completed Workbook.blank.descriptor) := by
    have hreply := eq_of_beq hreply
    cases reply with
    | ok => rw [Option.some.inj hreply]
    | error => cases hreply
  have hstart : Run (fun _ _ => True) _ s _ :=
    Run.of_end? hs
  have hrun := (hstart.event (.act oneChange) trivial).event .carry trivial
  generalize hL : Event.carry.note _ _ = L at hrun
  have hlength : L.planned.length = 1 := by
    rw [← hL, Event.planned_note_carry]
    exact eq_of_beq hplanned
  have hreq : Activity.Runs (Session.Rely fun _ _ => True) _ _ L _ t L := Progress.runs_of_end? ht
  rcases switch_separates_writes (Session.isNew_on _) rfl rfl hrun hreq with ⟨hdeclined, -⟩ |
    ⟨m, M, hturn, -, hm, hM, rfl, -⟩
  · cases hdeclined
  · exact ⟨_, _, t, _, m, hrun, hturn, hlength, hM, hm⟩

end Runs

end SheetSync
