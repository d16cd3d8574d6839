import MusicRemote.Foundation.Precedence
import MusicRemote.Server.Addressed

namespace MusicRemote.Server

open Foundation Foundation.Transition Protocol Protocol.Json Protocol.Framing

def pushes (es : List Envelope) : List (ℕ × ℕ) :=
  es.filterMap fun e ↦
    match e.body, e.cause with
    | .push _, .message t k => some (t, k)
    | _, _ => none

def responses (es : List Envelope) : List (ℕ × ℕ) :=
  es.filterMap fun e ↦
    match e.body, e.cause with
    | .response _, .message t k => some (t, k)
    | _, _ => none

def Increasing (l : List (ℕ × ℕ)) : Prop := l.Pairwise (fun r r' ↦ r.1 = r'.1 → r.2 < r'.2)

/-- Every broadcast happens within one turn of the lock. -/
structure Board.Ordered (b : Board) : Prop where
  exclusive : ∀ t u r r', (b.view t).reader = some r → (b.view u).reader = some r' →
    r.holdsLock = true → r'.holdsLock = true → t = u
  increasing : Increasing (locks b.log)
  sublist : ∀ p, (pushes (sentTo p b.log)).Sublist (locks b.log)
  pushing : ∀ t k push rest, (b.view t).reader = some (.pushing k push rest) →
    (rest.map Player.tx).Nodup ∧ ∃ l, locks b.log = l ++ [(t, k)] ∧
      ∀ p ∈ rest, (pushes (sentTo p.tx b.log)).Sublist l

variable {env : Env} {lossy : Bool} {grants : List Entry → Prop} {b b' : Board} {t u k : ℕ}
  {v v' : View} {es log : List Event} {s : State} {as : List Action} {l : List (ℕ × ℕ)}

theorem pushes_append (es es' : List Envelope) : pushes (es ++ es') = pushes es ++ pushes es' :=
  List.filterMap_append ..

theorem responses_append (es es' : List Envelope) :
    responses (es ++ es') = responses es ++ responses es' := List.filterMap_append ..

theorem Increasing.nodup (h : Increasing l) : l.Nodup :=
  h.imp fun {r r'} hlt he ↦ by
    subst he
    exact Nat.lt_irrefl _ (hlt rfl)

theorem Increasing.concat (h : Increasing l) (hk : ∀ k', (t, k') ∈ l → k' < k) :
    Increasing (l ++ [(t, k)]) := by
  refine List.pairwise_append.2 ⟨h, List.pairwise_singleton .., ?_⟩
  rintro ⟨t', k'⟩ hr r' hr'
  obtain rfl := List.mem_singleton.1 hr'
  rintro rfl
  exact hk k' hr

/-- While the reader is at a message that has left no event of some kind, all events
of that kind belong to earlier messages. -/
theorem View.Staged.lt_of_mem (hs : v.Staged env lossy t log)
    (hk : v.reader.bind Reader.index = some k) {f : Event → Option (ℕ × ℕ)}
    (hf : ∀ e r, f e = some r → e.owner = some r) (hn : ∀ e ∈ trace log t k, f e = none) (k' : ℕ)
    (hr : (t, k') ∈ log.filterMap f) : k' < k := by
  obtain ⟨e, he, hfe⟩ := List.mem_filterMap.1 hr
  have ho := hf e _ hfe
  have hmem : e ∈ trace log t k' := List.mem_filter.2 ⟨he, by simpa using ho⟩
  have hlt : k' < v.received := by
    by_contra hle
    rw [hs.unseen k' (Nat.le_of_not_lt hle)] at hmem
    cases hmem
  have hne : k' ≠ k := by
    rintro rfl
    rw [hn e hmem] at hfe
    cases hfe
  have := hs.index k hk
  omega

theorem View.Staged.lt_of_locking (hs : v.Staged env lossy t log) {push : PushMediaKeyEvent}
    (hr : v.reader = some (.locking k push)) (k' : ℕ) (hk : (t, k') ∈ locks log) : k' < k := by
  have hi : v.reader.bind Reader.index = some k := by
    rw [hr]
    rfl
  refine hs.lt_of_mem hi ?_ ?_ k' hk
  · intro e r he
    cases e with
    | locked => exact he
    | _ => cases he
  · have hst := hs.stage k
    rw [readerAt_eq_self hi, hr] at hst
    generalize trace log t k = tr at hst
    cases hst with
    | locking => simp

/-- A move that is part of a broadcast takes the lock or serves a player; all others
leave locks and pushes alone. -/
theorem Move.lock_or_push (h : Move env lossy grants t v es v') :
    (locks es = [] ∧ (∀ p, pushes (sentTo p es) = []) ∧
      ∀ r, v'.reader = some r → r.holdsLock = true → v.reader = some r) ∨
    (∃ k push entries, v.reader = some (.locking k push) ∧ es = [.locked t k entries] ∧
      v'.reader = some (.pushing k push (others v.sessionId entries)) ∧ grants entries) ∨
    ∃ k push p rest, v.reader = some (.pushing k push (p :: rest)) ∧ es = [pushEvent t k push p] ∧
      v'.reader = some (.pushing k push rest) := by
  have hother {r' : Reader} (h : r'.holdsLock = false) (r : Reader) (hr : some r' = some r)
      (hl : r.holdsLock = true) : v.reader = some r := by
    cases hr
    rw [h] at hl
    cases hl
  have hanswer (body : Body) (hb : ∀ push, body ≠ .push push) (k p : ℕ) :
      pushes (sentTo p [answerEvent t k body, .returned t k true]) = [] := by
    by_cases hp : t = p <;> cases body <;> simp_all [sentTo, answerEvent, pushes, envelope]
  cases h with
  | skip | spawn => exact .inl ⟨rfl, fun _ ↦ rfl, fun r hr _ ↦ hr⟩
  | ping millis =>
    refine .inl ⟨rfl, fun p ↦ ?_, fun r hr _ ↦ hr⟩
    by_cases hp : t = p <;> simp [sentTo, pushes, envelope, hp]
  | start | permit | unlock | receive => exact .inl ⟨rfl, fun _ ↦ rfl, hother rfl⟩
  | cancel =>
    refine .inl ⟨rfl, fun _ ↦ rfl, fun r hr _ ↦ ?_⟩
    cases hr
  | idle hr hi hi' =>
    refine .inl ⟨rfl, fun _ ↦ rfl, fun r hr hl ↦ ?_⟩
    dsimp only at hr
    rw [hr] at hi'
    cases r with
    | pushing => cases hi'
    | _ => cases hl
  | fail | ignore | abort => exact .inl ⟨rfl, fun _ ↦ rfl, hother rfl⟩
  | pong | refuse | respond => exact .inl ⟨rfl, hanswer _ (fun _ h ↦ by cases h) _, hother rfl⟩
  | lock hr hg => exact .inr (.inl ⟨_, _, _, hr, rfl, rfl, hg⟩)
  | push hr => exact .inr (.inr ⟨_, _, _, _, hr, rfl, rfl⟩)

theorem Board.Ordered.initial : State.init.board.Ordered :=
  ⟨nofun, .nil, fun _ ↦ List.Sublist.slnil, nofun⟩

theorem Board.Ordered.advance (ho : b.Ordered) (hs : b.Staged env lossy)
    (h : Advance env lossy b b') : b'.Ordered := by
  obtain ⟨t, es, h, hv, hlog⟩ := h.exists_move
  have hview {u : ℕ} {r : Reader} (hr : (b'.view u).reader = some r) :
      u = t ∨ (b.view u).reader = some r := by
    by_cases hu : u = t
    · exact .inl hu
    · exact .inr (by rwa [hv u hu] at hr)
  obtain ⟨hl, hp, hr⟩ | ⟨k, push, entries, hr, rfl, hr', hg⟩ |
    ⟨k, push, p, rest, hr, rfl, hr'⟩ := h.lock_or_push
  · -- Neither locks nor pushes change, and who holds the lock has held it before.
    have hkept {u : ℕ} {r : Reader} (hu : (b'.view u).reader = some r) (hl : r.holdsLock = true) :
        (b.view u).reader = some r := by
      obtain rfl | hu := hview hu
      · exact hr r hu hl
      · exact hu
    have hlocks : locks b'.log = locks b.log := by rw [hlog, locks_append, hl, List.append_nil]
    have hpushes (p : ℕ) : pushes (sentTo p b'.log) = pushes (sentTo p b.log) := by
      rw [hlog, sentTo_append, pushes_append, hp, List.append_nil]
    refine ⟨?_, by rw [hlocks]; exact ho.increasing, ?_, ?_⟩
    · intro t u r r' ht hu hlt hlu
      exact ho.exclusive t u r r' (hkept ht hlt) (hkept hu hlu) hlt hlu
    · intro p
      rw [hlocks, hpushes]
      exact ho.sublist p
    · intro u k push rest hu
      simp only [hlocks, hpushes]
      exact ho.pushing u k push rest (hkept hu rfl)
  · -- Nobody holds the lock when it is taken.
    have hfree {u : ℕ} {r : Reader} (hu : (b'.view u).reader = some r) (hl : r.holdsLock = true) :
        u = t := by
      obtain hu | hu := hview hu
      · exact hu
      · rw [hg.free u r hu] at hl
        cases hl
    have hlocks : locks b'.log = locks b.log ++ [(t, k)] := by
      rw [hlog, locks_append]
      rfl
    have hpushes (p : ℕ) : pushes (sentTo p b'.log) = pushes (sentTo p b.log) := by
      rw [hlog, sentTo_append, pushes_append]
      exact List.append_nil _
    refine ⟨fun t u r r' ht hu hlt hlu ↦ (hfree ht hlt).trans (hfree hu hlu).symm, ?_, ?_, ?_⟩
    · rw [hlocks]
      exact ho.increasing.concat ((hs t).lt_of_locking hr)
    · intro p
      rw [hlocks, hpushes]
      exact (ho.sublist p).trans (List.sublist_append_left ..)
    · intro u k' push' rest hu
      obtain rfl := hfree hu rfl
      rw [hr'] at hu
      cases hu
      refine ⟨hg.nodup_others _, _, hlocks, fun p _ ↦ ?_⟩
      rw [hpushes]
      exact ho.sublist p.tx
  · -- The player served is not served again, and the lock stays with this request.
    obtain ⟨hn, l, hl, hrest⟩ := ho.pushing t k push _ hr
    rw [List.map_cons, List.nodup_cons] at hn
    have hholds {u : ℕ} {r : Reader} (hu : (b'.view u).reader = some r) (hl : r.holdsLock = true) :
        u = t := by
      obtain hu | hu := hview hu
      · exact hu
      · exact ho.exclusive u t r _ hu hr hl rfl
    have hlocks : locks b'.log = locks b.log := by
      rw [hlog, locks_append]
      exact List.append_nil _
    have hpushes (q : ℕ) (hq : q ≠ p.tx) :
        pushes (sentTo q b'.log) = pushes (sentTo q b.log) := by
      rw [hlog, sentTo_append, pushes_append]
      simp [sentTo, pushEvent, pushes, hq.symm]
    refine ⟨fun t u r r' ht hu hlt hlu ↦ (hholds ht hlt).trans (hholds hu hlu).symm,
      by rw [hlocks]; exact ho.increasing, ?_, ?_⟩
    · intro q
      rw [hlocks]
      by_cases hq : q = p.tx
      · have hpush : pushes (sentTo q b'.log) = pushes (sentTo q b.log) ++ [(t, k)] := by
          rw [hlog, sentTo_append, pushes_append]
          simp [sentTo, pushEvent, pushes, envelope, hq]
        rw [hpush, hl, hq]
        exact (hrest p List.mem_cons_self).append (List.Sublist.refl _)
      · rw [hpushes q hq]
        exact ho.sublist q
    · intro u k' push' rest' hu
      obtain rfl := hholds hu rfl
      rw [hr'] at hu
      cases hu
      refine ⟨hn.2, l, hlocks.trans hl, fun p' hp' ↦ ?_⟩
      rw [hpushes]
      · exact hrest p' (List.mem_cons_of_mem _ hp')
      · intro he
        exact hn.1 (he ▸ List.mem_map_of_mem hp')

structure Board.Answered (b : Board) : Prop where
  own : ∀ u r, r ∈ responses (sentTo u b.log) → r.1 = u
  increasing : ∀ u, Increasing (responses (sentTo u b.log))

theorem responses_sentTo (u : ℕ) (log : List Event) : responses (sentTo u log) =
    log.filterMap fun
      | .enqueued target ⟨_, .response _, .message t k⟩ => if target = u then some (t, k) else none
      | _ => none := by
  rw [responses, sentTo, List.filterMap_filterMap]
  congr
  funext e
  cases e with
  | enqueued target e =>
    obtain ⟨message, body, cause⟩ := e
    by_cases hu : target = u <;> cases body <;> cases cause <;> simp [hu]
  | _ => rfl

theorem View.Staged.lt_of_answering (hs : v.Staged env lossy t log) {r : Reader}
    (hr : v.reader = some r) (hk : (∃ m, r = .received k m) ∨ r = .responding k) (u k' : ℕ)
    (hmem : (t, k') ∈ responses (sentTo u log)) : k' < k := by
  have hi : v.reader.bind Reader.index = some k := by
    obtain ⟨m, rfl⟩ | rfl := hk <;> rw [hr] <;> rfl
  rw [responses_sentTo] at hmem
  refine hs.lt_of_mem hi ?_ ?_ k' hmem
  · intro e r he
    split at he
    · split at he
      · exact he
      · cases he
    · cases he
  · have hst := hs.stage k
    rw [readerAt_eq_self hi, hr] at hst
    generalize trace log t k = tr at hst
    obtain ⟨m, rfl⟩ | rfl := hk
    · cases hst with
      | received => simp
    · cases hst with
      | responding => simp [pushEvent, envelope]

theorem Move.answers (h : Move env lossy grants t v es v') :
    (∀ u, responses (sentTo u es) = []) ∨
      ∃ k body r, es = [answerEvent t k body, .returned t k true] ∧ v.reader = some r ∧
        ((∃ m, r = .received k m) ∨ r = .responding k) := by
  cases h with
  | ping => exact .inl fun u ↦ by by_cases hu : t = u <;> simp [sentTo, responses, envelope, hu]
  | @push _ _ p _ _ =>
    refine .inl fun u ↦ ?_
    by_cases hu : p.tx = u <;> simp [sentTo, pushEvent, responses, envelope, hu]
  | pong hr | refuse hr => exact .inr ⟨_, _, _, rfl, hr, .inl ⟨_, rfl⟩⟩
  | respond hr => exact .inr ⟨_, _, _, rfl, hr, .inr rfl⟩
  | _ => exact .inl fun _ ↦ rfl

theorem Board.Answered.advance (ha : b.Answered) (hs : b.Staged env lossy)
    (h : Advance env lossy b b') : b'.Answered := by
  obtain ⟨t, es, h, -, hlog⟩ := h.exists_move
  have hsent (u : ℕ) : responses (sentTo u b'.log) =
      responses (sentTo u b.log) ++ responses (sentTo u es) := by
    rw [hlog, sentTo_append, responses_append]
  obtain hn | ⟨k, body, r, rfl, hr, hk⟩ := h.answers
  · simp only [hn, List.append_nil] at hsent
    exact ⟨fun u ↦ by rw [hsent]; exact ha.own u, fun u ↦ by rw [hsent]; exact ha.increasing u⟩
  · have hes (u : ℕ) : responses (sentTo u [answerEvent t k body, .returned t k true]) = [] ∨
        u = t ∧ responses (sentTo u [answerEvent t k body, .returned t k true]) = [(t, k)] := by
      by_cases hu : t = u <;> cases body <;> simp [sentTo, answerEvent, responses, envelope, hu]
    refine ⟨fun u r hmem ↦ ?_, fun u ↦ ?_⟩
    · rw [hsent] at hmem
      obtain he | ⟨rfl, he⟩ := hes u
      · rw [he, List.append_nil] at hmem
        exact ha.own u r hmem
      · rw [he] at hmem
        obtain hmem | hmem := List.mem_append.1 hmem
        · exact ha.own u r hmem
        · rw [List.mem_singleton.1 hmem]
    · rw [hsent]
      obtain he | ⟨rfl, he⟩ := hes u
      · rw [he, List.append_nil]
        exact ha.increasing u
      · rw [he]
        exact (ha.increasing u).concat ((hs u).lt_of_answering hr hk u)

theorem ordered_of_run {ok : State → Action → Prop} (h : Run (step env) ok .init as s) :
    s.board.Ordered ∧ s.board.Answered := by
  have hi : s.board.Staged env true ∧ s.board.Ordered ∧ s.board.Answered :=
    board_invariant true h nofun (I := fun b ↦ b.Staged env true ∧ b.Ordered ∧ b.Answered)
      ⟨fun _ ↦ .initial 0, .initial, ⟨nofun, fun _ ↦ .nil⟩⟩
      (fun _ _ ⟨hs, ho, ha⟩ hb ↦ ⟨hs.advance hb, ho.advance hs hb, ha.advance hs hb⟩)
  exact hi.2

/-- Whatever the interleaving, two receivers write the pushes that they share in the
same order, the pushes of one session follow its frames, and so do its responses. -/
theorem broadcasts_are_totally_ordered (h : Run (step env) Any .init as s) :
    (∀ p, (s.session p).written <+: sentTo p s.log ∧ (pushes (sentTo p s.log)).Nodup) ∧
    (∀ p q r₁ r₂, r₁ ∈ pushes (sentTo q s.log) → r₂ ∈ pushes (sentTo q s.log) →
      (Precedes (pushes (sentTo p s.log)) r₁ r₂ → Precedes (pushes (sentTo q s.log)) r₁ r₂) ∧
      (Precedes (pushes (s.session p).written) r₁ r₂ → r₂ ∈ pushes (s.session q).written →
        Precedes (pushes (s.session q).written) r₁ r₂)) ∧
    (∀ p t k₁ k₂, k₁ < k₂ → (t, k₁) ∈ pushes (sentTo p s.log) →
      (t, k₂) ∈ pushes (s.session p).written →
        Precedes (pushes (s.session p).written) (t, k₁) (t, k₂)) ∧
    ∀ t r₁ r₂, Precedes (responses (s.session t).written) r₁ r₂ →
      r₁.1 = t ∧ r₂.1 = t ∧ r₁.2 < r₂.2 := by
  obtain ⟨ho, ha⟩ := ordered_of_run h
  have hd (p : ℕ) : (s.session p).written <+: sentTo p s.log :=
    (List.prefix_append ..).trans (delivers_of_run h p).isPrefix
  have hpre (p : ℕ) : pushes (s.session p).written <+: pushes (sentTo p s.log) :=
    (hd p).filterMap _
  have hlocks := ho.increasing.nodup
  have hn (p : ℕ) : (pushes (sentTo p s.log)).Nodup := hlocks.sublist (ho.sublist p)
  refine ⟨fun p ↦ ⟨hd p, hn p⟩, fun p q r₁ r₂ h₁ h₂ ↦ ?_, fun p t k₁ k₂ hk h₁ h₂ ↦ ?_, ?_⟩
  · have hagree (hp : Precedes (pushes (sentTo p s.log)) r₁ r₂) :
        Precedes (pushes (sentTo q s.log)) r₁ r₂ :=
      .agree hlocks (ho.sublist p) (ho.sublist q) hp h₁ h₂
    refine ⟨hagree, fun hp hq ↦ ?_⟩
    exact .of_isPrefix (hn q) (hpre q) (hagree (hp.mono (hpre p).sublist)) hq
  · have h₂' := (hpre p).subset h₂
    obtain hlt | hgt := Precedes.total h₁ h₂' (by simp; omega)
    · exact .of_isPrefix (hn p) (hpre p) hlt h₂
    · have := (hgt.mono (ho.sublist p)).rel ho.increasing rfl
      omega
  · intro t r₁ r₂ hr
    have hr' : Precedes (responses (sentTo t s.log)) r₁ r₂ := hr.mono ((hd t).filterMap _).sublist
    have h₁ := ha.own t r₁ hr'.left
    have h₂ := ha.own t r₂ hr'.right
    exact ⟨h₁, h₂, hr'.rel (ha.increasing t) (h₁.trans h₂.symm)⟩

def playData : String :=
  "\x7b\"action\":0,\"code\":85,\"token\":\"\",\"authorization_code\":\"x\"\x7d"

def playText : String :=
  "\x7b\"name\":\"SendControlMediaKeyEventRequest\",\"data\":\"\x7b\\\"action\\\":0," ++
    "\\\"code\\\":85,\\\"token\\\":\\\"\\\",\\\"authorization_code\\\":\\\"x\\\"\x7d\"\x7d"

def playEnv : Env where
  authorizationCode := "x"
  readMessage text :=
    if text = playText then some ⟨"SendControlMediaKeyEventRequest", playData⟩ else none
  readPing _ := none
  readRequest data := if data = playData then some ⟨0, 85, "", "x"⟩ else none

def twoRequests : List Action :=
  [.spawn, .start 0, .spawn, .start 1, .spawn, .start 2,
    .readBuf 0 (frame playText), .recvFrame 0, .recvMessage 0,
    .lock 0 [⟨2, 1, 2⟩, ⟨3, 2, 3⟩, ⟨1, 0, 1⟩], .push 0, .push 0, .push 0, .respond 0, .recvFrame 0,
    .readBuf 0 (frame playText), .recvFrame 0, .recvMessage 0,
    .lock 0 [⟨3, 2, 3⟩, ⟨2, 1, 2⟩, ⟨1, 0, 1⟩], .push 0, .push 0, .push 0, .respond 0,
    .write 1 true, .write 1 true, .write 2 true, .write 2 true]

theorem run_twoRequests :
    ∃ s, Run (step playEnv) (fun s a ↦ receiverOpen s a = true) .init twoRequests s ∧
      s.spawned = 3 ∧ pushes (s.session 1).written = [(0, 0), (0, 1)] ∧
      pushes (s.session 2).written = [(0, 0), (0, 1)] :=
  Run.exists_of_execute (by decide +kernel)

theorem order_after_two_requests : ∃ s, Run (step playEnv) Any .init twoRequests s ∧
    Precedes (pushes (s.session 2).written) (0, 0) (0, 1) := by
  obtain ⟨s, h, -, h₁, h₂⟩ := run_twoRequests
  have hsent : (pushes (s.session 2).written).Sublist (pushes (sentTo 2 s.log)) :=
    (((broadcasts_are_totally_ordered h.any).1 2).1.filterMap _).sublist
  rw [h₂] at hsent
  refine ⟨s, h.any, ((broadcasts_are_totally_ordered h.any).2.1 1 2 (0, 0) (0, 1) ?_ ?_).2 ?_ ?_⟩
  · exact hsent.subset List.mem_cons_self
  · exact hsent.subset (List.mem_cons_of_mem _ List.mem_cons_self)
  · rw [h₁]
    exact List.Sublist.refl _
  · rw [h₂]
    exact List.mem_cons_of_mem _ List.mem_cons_self

end MusicRemote.Server
