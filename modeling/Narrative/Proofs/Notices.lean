import Narrative.Proofs.Completion
import Narrative.Proofs.Journal

set_option autoImplicit false

/-!
# Changes of quests and their notices

Who sets a milestone or moves a quest on calls for two effects, the change and the notice that quests were
updated, and no deed calls for one without the other (`Deed.effects_cases`). A session carries out both
before anything else can happen. So in its journal each change stands right before a notice and each
notice right behind a change, however the deeds are nested in dispatches and sequels, and the session
has received as many notices as there were changes (`quest_changes_are_noticed_at_once`).

The induction over a run cannot go call by call, since a change alone breaks the rule: it takes what is
called for in one go as one step (`CalledTogether`). Journals that obey the rule are put together from
blocks, a change with its notice or an entry that is neither (`Noticed`), so two of them may be joined.
-/

namespace Narrative

/-! ## Journals with notices -/

/-- An effect that sets a milestone, or moves a quest on. -/
def Effect.changesQuests : Effect → Bool
  | .milestoneSet _ | .startQuest _ | .completeQuest _ => true
  | .failQuest .. | .advanceQuestStage .. | .updateQuestTask .. => true
  | _ => false

namespace Entry

/-- An entry of such a change. -/
def changesQuests : Entry → Bool
  | .effect x _ => x.changesQuests
  | .scene .. => false

/-- An entry of the notice that quests were updated. -/
def isNotice : Entry → Bool
  | .effect .questUpdated _ => true
  | _ => false

end Entry

/-- A journal in which each change is noticed at once, and nothing else is. -/
inductive Noticed : List Entry → Prop where
  | nil : Noticed []
  | other {entry : Entry} {rest : List Entry} (hchange : entry.changesQuests = false)
      (hnotice : entry.isNotice = false) (hrest : Noticed rest) : Noticed (entry :: rest)
  | change {entry notice : Entry} {rest : List Entry} (hchange : entry.changesQuests = true)
      (hnotice : notice.isNotice = true) (hrest : Noticed rest) : Noticed (entry :: notice :: rest)

/-- No entry is both. -/
theorem Entry.isNotice_of_changesQuests {entry : Entry} (h : entry.changesQuests = true) :
    entry.isNotice = false := by
  cases entry with
  | scene => cases h
  | effect x accepted =>
      cases x with
      | questUpdated => cases h
      | _ => rfl

theorem Entry.isNotice_eq_false {x : Effect} (hx : x ≠ .questUpdated) {accepted : Bool} :
    (Entry.effect x accepted).isNotice = false := by
  cases x with
  | questUpdated => exact absurd rfl hx
  | _ => rfl

theorem Entry.changesQuests_of_isNotice {entry : Entry} (h : entry.isNotice = true) :
    entry.changesQuests = false := by
  by_contra hchange
  rw [Entry.isNotice_of_changesQuests (Bool.not_eq_false _ ▸ hchange)] at h
  cases h

namespace Noticed

variable {journal later : List Entry} {entry : Entry} {i : Nat}

theorem append (h : Noticed journal) (h' : Noticed later) : Noticed (journal ++ later) := by
  induction h with
  | nil => exact h'
  | other hchange hnotice _ ih => exact .other hchange hnotice ih
  | change hchange hnotice _ ih => exact .change hchange hnotice ih

/-- There are as many notices as changes. -/
theorem countP_isNotice (h : Noticed journal) :
    journal.countP Entry.isNotice = journal.countP Entry.changesQuests := by
  induction h with
  | nil => rfl
  | other hchange hnotice _ ih => simp [hchange, hnotice, ih]
  | change hchange hnotice _ ih =>
      have hfirst := Entry.isNotice_of_changesQuests hchange
      have hsecond := Entry.changesQuests_of_isNotice hnotice
      simp [hchange, hnotice, hfirst, hsecond, ih]

/-- Behind a change stands a notice. -/
theorem noticed (h : Noticed journal) (hentry : journal[i]? = some entry)
    (hchange : entry.changesQuests = true) :
    ∃ notice, journal[i + 1]? = some notice ∧ notice.isNotice = true := by
  induction h generalizing i with
  | nil => cases hentry
  | other hquiet _ _ ih =>
      cases i with
      | zero =>
          obtain rfl := Option.some.inj hentry
          rw [hquiet] at hchange
          cases hchange
      | succ i => exact ih hentry
  | @change first notice rest _ hnotice _ ih =>
      match i with
      | 0 => exact ⟨notice, rfl, hnotice⟩
      | 1 =>
          obtain rfl := Option.some.inj hentry
          rw [Entry.changesQuests_of_isNotice hnotice] at hchange
          cases hchange
      | i + 2 => exact ih hentry

/-- Before a notice stands a change. -/
theorem changed (h : Noticed journal) (hentry : journal[i]? = some entry)
    (hnotice : entry.isNotice = true) :
    ∃ before change, i = before + 1 ∧ journal[before]? = some change ∧
      change.changesQuests = true := by
  induction h generalizing i with
  | nil => cases hentry
  | other _ hquiet _ ih =>
      cases i with
      | zero =>
          obtain rfl := Option.some.inj hentry
          rw [hquiet] at hnotice
          cases hnotice
      | succ i =>
          obtain ⟨before, change, rfl, hbefore, hchange⟩ := ih hentry
          exact ⟨before + 1, change, rfl, hbefore, hchange⟩
  | @change first _ rest hchange _ _ ih =>
      match i with
      | 0 =>
          obtain rfl := Option.some.inj hentry
          rw [Entry.isNotice_of_changesQuests hchange] at hnotice
          cases hnotice
      | 1 => exact ⟨0, first, rfl, rfl, hchange⟩
      | i + 2 =>
          obtain ⟨before, change, rfl, hbefore, hchange'⟩ := ih hentry
          exact ⟨before + 2, change, rfl, hbefore, hchange'⟩

end Noticed

/-! ## What is called for in one go -/

/-- An effect that is neither a change nor a notice. -/
def Effect.LeavesQuests (x : Effect) : Prop := x.changesQuests = false ∧ x ≠ .questUpdated

/-- **A deed calls for a change and its notice, or for nothing of the kind.** -/
theorem Deed.effects_cases (d : Deed) :
    (∃ x, x.changesQuests = true ∧ d.effects = [x, .questUpdated]) ∨
      ∀ x ∈ d.effects, x.LeavesQuests := by
  unfold Deed.effects
  split
  -- the six deeds that change quests
  iterate 6 · exact .inl ⟨_, rfl, rfl⟩
  -- the others call for one effect at most
  all_goals right
  all_goals try split
  all_goals simp [Effect.LeavesQuests, Effect.changesQuests]

/-- Only a notice is counted. -/
theorem Game.questUpdates_apply (g : Game) {x : Effect} (hx : x ≠ .questUpdated) :
    (g.apply x).progress.questUpdates = g.progress.questUpdates := by
  cases x with
  | questUpdated => exact absurd rfl hx
  | grantReward r =>
      obtain ⟨_, _, _, _, hgranted⟩ := g.exists_granted r
      exact congrArg (·.progress.questUpdates) hgranted
  | takeItem item quantity =>
      simp only [Game.apply]
      split <;> rfl
  | failQuest quest reason =>
      simp only [Game.apply]
      split <;> rfl
  | partyMemberJoined member =>
      simp only [Game.apply, Game.updateProgress]
      split <;> rfl
  | advanceQuestStage quest stage => cases quest <;> cases stage <;> rfl
  | updateQuestTask quest task => cases quest <;> cases task <;> rfl
  | _ => rfl

theorem Game.questUpdates_record (event : Event) (g : Game) :
    (event.record g).progress.questUpdates = g.progress.questUpdates := by
  rw [Event.record]
  split <;> rfl

theorem Game.questUpdates_seeTutorial (tutorial : Option String) (g : Game) :
    (g.seeTutorial tutorial).progress.questUpdates = g.progress.questUpdates := by
  cases tutorial <;> rfl

/-! ## Runs over a session -/

/-- What happened between two worlds obeys the rule: each change that was called for was noticed
at once, and the session has counted the notices. -/
structure NoticedBy (new : List Moment) (u v : World) : Prop where
  trace : v.trace = new ++ u.trace
  calls : Noticed (callsIn new)
  updates : v.game.progress.questUpdates =
    u.game.progress.questUpdates + UInt32.ofNat ((callsIn new).countP Entry.isNotice)

/-- Each change was noticed at once. -/
def NoticedSince (u v : World) : Prop := ∃ new, NoticedBy new u v

namespace NoticedSince

variable {u v w : World}

theorem trans (h : NoticedSince u v) (h' : NoticedSince v w) : NoticedSince u w := by
  obtain ⟨new, htrace, hcalls, hupdates⟩ := h
  obtain ⟨new', htrace', hcalls', hupdates'⟩ := h'
  refine ⟨new' ++ new, ?_, ?_, ?_⟩
  · rw [htrace', htrace, List.append_assoc]
  · rw [callsIn_append]
    exact hcalls.append hcalls'
  · rw [hupdates', hupdates, callsIn_append, List.countP_append, UInt32.ofNat_add, UInt32.add_assoc]

/-- Nothing happens, but for a change that counts no notice. -/
theorem same (hgame : v.game.progress.questUpdates = u.game.progress.questUpdates)
    (htrace : v.trace = u.trace) : NoticedSince u v :=
  ⟨[], htrace, .nil, hgame.trans (UInt32.add_zero _).symm⟩

/-- Something happens that the rule does not speak of. -/
theorem single {m : Moment} (htrace : v.trace = m :: u.trace)
    (hquiet : ∀ entry, m.happening.entry? = some entry →
      entry.changesQuests = false ∧ entry.isNotice = false)
    (hgame : v.game.progress.questUpdates = u.game.progress.questUpdates) : NoticedSince u v := by
  cases hentry : m.happening.entry? with
  | none =>
      have hcalls : callsIn [m] = [] := callsIn_cons_of_none hentry m.game m.depth []
      refine ⟨[m], htrace, hcalls ▸ .nil, ?_⟩
      rw [hcalls, hgame]
      exact (UInt32.add_zero _).symm
  | some entry =>
      obtain ⟨hchange, hnotice⟩ := hquiet entry hentry
      have hcalls : callsIn [m] = [entry] := by simp [callsIn, hentry]
      refine ⟨[m], htrace, hcalls ▸ .other hchange hnotice .nil, ?_⟩
      rw [hcalls, hgame]
      simp [hnotice]

/-- An effect that is neither a change nor a notice. -/
theorem settle {x : Effect} (hx : x.LeavesQuests) (wiring : Wiring) (w : World) :
    NoticedSince w (w.settle wiring x) := by
  refine single (w.trace_settle wiring x) (fun entry hentry => ?_) ?_
  · obtain rfl := Option.some.inj hentry
    exact ⟨hx.1, Entry.isNotice_eq_false hx.2⟩
  · rw [World.game_settle]
    exact w.game.questUpdates_apply hx.2

/-- A change and its notice. -/
theorem settle_change {x : Effect} (hx : x.changesQuests = true) (wiring : Wiring) (w : World) :
    NoticedSince w ((w.settle wiring x).settle wiring .questUpdated) := by
  have hother : x ≠ .questUpdated := by
    rintro rfl
    cases hx
  let change : Moment := ⟨.called (.effect x (w.game.accepts x)), w.game, w.depth⟩
  let notice : Moment := ⟨.called (.effect .questUpdated true), w.game.apply x, w.depth⟩
  have hcalls : callsIn [notice, change] =
      [.effect x (w.game.accepts x), .effect .questUpdated true] := rfl
  refine ⟨[notice, change], ?_, ?_, ?_⟩
  · rw [World.trace_settle, World.game_settle, World.depth_settle, World.trace_settle]
    rfl
  · rw [hcalls]
    exact .change hx rfl .nil
  · have hcount : (callsIn [notice, change]).countP Entry.isNotice = 1 := by
      rw [hcalls, List.countP_cons, Entry.isNotice_eq_false hother]
      rfl
    rw [hcount, World.game_settle, World.game_settle, ← w.game.questUpdates_apply hother]
    rfl

/-- What an engine calls for in one go. -/
theorem called {effects : List Effect} (h : CalledTogether effects) (wiring : Wiring) (w : World) :
    NoticedSince w (w.settleAll wiring effects) := by
  have hquiet : (∀ x ∈ effects, x.LeavesQuests) → NoticedSince w (w.settleAll wiring effects) :=
    fun heffects => World.settleAll_of (fun _ => same rfl rfl) trans
      (fun x hx w => settle (heffects x hx) wiring w) w
  cases h with
  | deed d =>
      rcases d.effects_cases with ⟨x, hx, heffects⟩ | heffects
      · rw [heffects]
        exact settle_change hx wiring w
      · exact hquiet heffects
  | announcement event =>
      refine hquiet fun x hx => ?_
      obtain rfl := List.mem_singleton.1 hx
      exact ⟨rfl, Effect.noConfusion⟩

/-- **Whatever happens over a session, each change is noticed at once.** -/
theorem tracks (wiring : Wiring) :
    TraceTracks wiring (fun f => ∀ g, (f g).progress.questUpdates = g.progress.questUpdates)
      NoticedSince where
  trans := trans
  same hgame htrace := same (congrArg (·.progress.questUpdates) hgame) htrace
  noted w x hx := by
    refine single rfl (fun entry hentry => ?_) rfl
    rw [hx] at hentry
    cases hentry
  arranged _ _ hf := same (hf _) rfl
  called w _ heffects := called heffects wiring w
  scene w request answer := by
    refine single rfl (fun entry hentry => ?_) rfl
    obtain rfl := Option.some.inj hentry
    exact ⟨rfl, rfl⟩
  recorded := Game.questUpdates_record
  seen := Game.questUpdates_seeTutorial

end NoticedSince

/-- A move in which the host sends no notice and makes no change of quests by a call of its own, and in
which it keeps to the session. -/
def Move.LeavesQuests : Move → Prop
  | .effect x => x.LeavesQuests
  | .rewire _ => False
  | _ => True

/-- The changes that a host makes without a call count no notice. -/
theorem Move.questUpdates_of_change {m : Move} {f : Game → Game} (h : m.change? = some f) (g : Game) :
    (f g).progress.questUpdates = g.progress.questUpdates := by
  unfold Move.change? at h
  split at h
  all_goals cases h
  all_goals rfl

/-- **Changes of quests are noticed at once, and nothing else is.** Whatever the host does with a
session, short of changing quests or sending notices by calls of its own, and whenever it reads the
journal in between: in the whole journal each entry of a milestone, or of a quest that is started,
completed, failed or moved on, stands right before a notice that quests were updated, and each notice
right behind such an entry, however deep the dispatches and sequels were nested. So there are as many
notices as changes; the session has counted them modulo `2 ^ 32`, and exactly as long as they are
fewer. -/
theorem quest_changes_are_noticed_at_once (catalog : Catalog) (config : EngineConfig)
    (screen : Screen) (state : SessionState) {steps : List HostStep}
    (hsteps : ∀ m, .move m ∈ steps → m.LeavesQuests) :
    let recorded := (Play.start catalog config ⟨.session screen, true⟩ state).proceed steps
    let journal := recorded.taken ++ recorded.play.world.journal
    let changes := journal.countP Entry.changesQuests
    let updates := recorded.play.world.game.progress.questUpdates
    (∀ i change, journal[i]? = some change → change.changesQuests = true →
      ∃ notice, journal[i + 1]? = some notice ∧ notice.isNotice = true) ∧
    (∀ i notice, journal[i]? = some notice → notice.isNotice = true →
      ∃ before change, i = before + 1 ∧ journal[before]? = some change ∧
        change.changesQuests = true) ∧
    journal.countP Entry.isNotice = changes ∧ updates = UInt32.ofNat changes ∧
    (changes < UInt32.size → updates.toNat = changes) := by
  intro recorded journal changes updates
  have hwired : ∀ wiring, .move (.rewire wiring) ∉ steps := fun wiring h => hsteps _ h
  have hexact := Play.exact_proceed (p := Play.start catalog config ⟨.session screen, true⟩ state)
    hwired rfl
  have hnoticed := (NoticedSince.tracks ⟨.session screen, true⟩).session.proceed
    (p := Play.start catalog config ⟨.session screen, true⟩ state) rfl
    (fun w => NoticedSince.same rfl rfl) hwired (fun _ _ _ => Move.questUpdates_of_change)
    (fun x hx => NoticedSince.settle (hsteps _ hx) _) rfl
  obtain ⟨new, htrace, hcalls, hupdates⟩ := hnoticed
  have hwhole : journal = callsIn new := hexact.journal_eq htrace
  have hcount : updates = UInt32.ofNat changes := by
    show recorded.play.world.game.progress.questUpdates = UInt32.ofNat (journal.countP _)
    rw [hwhole, ← hcalls.countP_isNotice, hupdates]
    exact UInt32.zero_add _
  have hrule : Noticed journal := hwhole ▸ hcalls
  refine ⟨fun i change => hrule.noticed, fun i notice => hrule.changed, hrule.countP_isNotice,
    hcount, fun hfew => ?_⟩
  rw [hcount, UInt32.toNat_ofNat_of_lt' hfew]

/-- An event that completes a quest as soon as somebody pays. -/
def toll : Authored.Event where
  id := "toll"
  trigger := { type := "player_action", action := some "pay" }
  actions := [.mk { type := "complete_quest", questId := some "bridge" } [] [] []]

/-- Who pays in the sequel of a scene completes the quest in a dispatch inside it. Its notice is sent
before the dispatch goes on, and long before the scene is over. -/
theorem toll_is_noticed : ∃ c, Catalog.ofAuthored [toll] = .ok c ∧
    let crossing : List Action := [.playCinematic (some "arrival")
      [.deed (.setMilestone (some "crossed")), .playerAction (some "pay") none,
        .deed (.giveXp (some 5))], .deed (.updateQuestTask (some "bridge") none)]
    let steps : List HostStep := [.move (.perform crossing), .drain, .move (.setRoom "bank")]
    let recorded := (Play.start c {}
      ⟨.session (SceneMode.eager.screen true), true⟩ {}).proceed steps
    let journal := recorded.taken ++ recorded.play.world.journal
    (∀ m, .move m ∈ steps → m.LeavesQuests) ∧
    journal[3]? = some (.effect (.completeQuest "bridge") true) ∧
    (∃ notice, journal[4]? = some notice ∧ notice.isNotice = true) ∧
    journal[5]? = some (.effect (.eventCompleted "toll") true) ∧
    journal.countP Entry.changesQuests = 3 ∧
    recorded.play.world.game.progress.questUpdates.toNat = 3 := by
  refine ⟨_, rfl, ?_⟩
  intro crossing steps recorded journal
  have hsteps : ∀ m, .move m ∈ steps → m.LeavesQuests := by
    simp [steps, Move.LeavesQuests]
  have hcompleted : journal[3]? = some (.effect (.completeQuest "bridge") true) := by
    decide +kernel
  have hchanges : journal.countP Entry.changesQuests = 3 := by
    decide +kernel
  obtain ⟨hnoticed, -, -, -, hcounted⟩ :=
    quest_changes_are_noticed_at_once _ {} (SceneMode.eager.screen true) {} hsteps
  refine ⟨hsteps, hcompleted, hnoticed 3 _ hcompleted rfl, by decide +kernel, hchanges, ?_⟩
  exact (hcounted (hchanges ▸ by decide)).trans hchanges

end Narrative
