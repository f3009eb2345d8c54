import DsProxy.Backend.Consumption
import DsProxy.Lib.Exchange

/-!
# The history of a conversation

A question and its answer are two inserts, and the history is read by `created_at`, in any order
where the times are the same. It is a dialogue as long as every message is created later than all
before it, and no question is stored while another one waits for its answer.
-/

namespace DsProxy.Backend

open Relay Runs System

/-- The messages stored on a conversation, the last one first. -/
def history (id : UUID) (s : Conversing) : List (ℕ × Message) :=
  s.log.filter fun e => e.2.conversationID = id

def Message.Asks (message : Message) : Prop := message.role = "user"

def Message.Answers (message : Message) : Prop := message.role = "assistant"

theorem Message.Asks.not_answers {m : Message} (h : m.Asks) : ¬ m.Answers := by
  intro hanswers
  have hrole : "user" = "assistant" := h.symm.trans hanswers
  exact absurd hrole (by decide)

/-- A request on the conversation whose next call is this insert. -/
def Request.Inserts (id : UUID) (role : String) (request : Request) : Prop :=
  request.conversationID = id ∧
    ∃ text next, request.work = .call (.createMessage id role text) next

def Inserting (id : UUID) (role : String) (s : Conversing) (r : ℕ) : Prop :=
  ∃ request, s.requests[r]? = some request ∧ request.Inserts id role

/-- The messages of the table are those of the log, and however they are read by their times, each
question is followed by its answer, but for one at the end whose request is between its inserts. -/
structure IsDialogue (id : UUID) (s : Conversing) : Prop where
  stored : (history id s).map Prod.snd = (s.db.messages.filter (·.conversationID = id)).reverse
  dialogue : Exchange.Dialogues Message.Asks Message.Answers Message.createdAt
    (Inserting id "assistant" s) (history id s)

/-- A time behind all messages of the conversation. -/
def Latest (id : UUID) (s : Conversing) (now : ℕ) : Prop :=
  ∀ e ∈ history id s, e.2.createdAt < now

/-- A message that is stored is the latest, a question while no other waits for its answer, and the
insert of an answer does not fail. -/
def InTurn (id : UUID) (s : Conversing) : Conversing.Op → Prop
  | .call r outcome =>
    (Inserting id "user" s r → outcome.unavailable = false →
      Latest id s outcome.now ∧ ∀ other, ¬ Inserting id "assistant" s other) ∧
    (Inserting id "assistant" s r → outcome.unavailable = false ∧ Latest id s outcome.now)
  | _ => True

section Requests

variable {cfg : Config} {id other : UUID} {known known' : Learnt}
  {work : Async (Except Failure Message)}

theorem role_of_call {role role' text text' : String}
    {next : (Call.createMessage id role text).Answer → Async (Except Failure Message)}
    {next' : (Call.createMessage other role' text').Answer → Async (Except Failure Message)}
    (h : Program.call (Call.createMessage id role text) next =
      .call (.createMessage other role' text') next') : role = role' :=
  (Call.createMessage.inj (Program.call.inj h).1).2.1

theorem Asking.not_inserts (h : Asking cfg id known work) :
    ¬ Request.Inserts other "assistant" ⟨id, work, known'⟩ := by
  intro hinserts
  obtain ⟨-, text, next, hwork⟩ := hinserts
  dsimp only at hwork
  cases h with
  | failed => cases hwork
  | look hlooks hnext =>
      cases hwork
      cases hlooks
  | ask hnext hfailed =>
      exact absurd (role_of_call hwork) (by decide)

theorem Answering.inserts (h : Answering id known work) :
    Request.Inserts id "assistant" ⟨id, work, known'⟩ := by
  obtain ⟨text, next, hwork, -⟩ := h
  exact ⟨rfl, text, next, hwork⟩

theorem Billing.not_inserts (h : Billing id known work) :
    ¬ Request.Inserts other "assistant" ⟨id, work, known'⟩ := by
  intro hinserts
  obtain ⟨-, text, next, hwork⟩ := hinserts
  obtain ⟨transaction, _, hbilling, -⟩ := h
  cases hwork.symm.trans hbilling

theorem Updating.not_inserts (h : Updating id known work) :
    ¬ Request.Inserts other "assistant" ⟨id, work, known'⟩ := by
  intro hinserts
  obtain ⟨-, text, next, hwork⟩ := hinserts
  obtain ⟨_, _, _, -, -, hupdating, -⟩ := h
  cases hwork.symm.trans hupdating

theorem not_inserts_ret {role : String} {result : Except Failure Message} :
    ¬ Request.Inserts other role ⟨id, .ret result, known⟩ := by
  intro hinserts
  obtain ⟨-, text, next, hwork⟩ := hinserts
  cases hwork

end Requests

/-! ### What a step does to the history -/

section Steps

variable {cfg : Config} {id : UUID} {s s' : Conversing} {r : ℕ} {op : Conversing.Op}

/-- What a run keeps of a conversation: only requests that have asked are in its history, and one
between its inserts has asked and not answered. -/
structure Conducted (cfg : Config) (id : UUID) (s : Conversing) : Prop where
  staged : AllStaged cfg s
  stored : (history id s).map Prod.snd = (s.db.messages.filter (·.conversationID = id)).reverse
  started : ∀ r m, (r, m) ∈ s.log → r < s.requests.length
  unasked : ∀ r c next known, s.requests[r]? = some ⟨id, .call c next, known⟩ →
    Asking cfg id known (.call c next) → ∀ m, (r, m) ∉ history id s
  opened : ∀ r, Inserting id "assistant" s r → Exchange.Open Message.Answers (history id s) r

theorem dialogues_congr (hhistory : history id s' = history id s)
    (hinserting : ∀ r, Inserting id "assistant" s' r ↔ Inserting id "assistant" s r) :
    Exchange.Dialogues Message.Asks Message.Answers Message.createdAt
        (Inserting id "assistant" s') (history id s') ↔
      Exchange.Dialogues Message.Asks Message.Answers Message.createdAt
        (Inserting id "assistant" s) (history id s) := by
  have hsame : Inserting id "assistant" s' = Inserting id "assistant" s := by
    funext r
    exact propext (hinserting r)
  rw [hhistory, hsame]

theorem inserting_set {w : World} {log : List (ℕ × Message)} {request request' : Request}
    {role : String} (hbefore : s.requests[r]? = some request) (other : ℕ) :
    Inserting id role ⟨w, s.requests.set r request', log⟩ other ↔
      if other = r then request'.Inserts id role else Inserting id role s other := by
  unfold Inserting
  split_ifs with hother
  · subst hother
    have hlength := (List.getElem?_eq_some_iff.mp hbefore).1
    simp only [List.getElem?_set_self hlength, Option.some.injEq, exists_eq_left']
  · simp only [List.getElem?_set_ne (Ne.symm hother)]

/-- What a call on any conversation leaves of the messages on this one. -/
inductive Stores (id : UUID) (s : Conversing) : Conversing.Op → Conversing → Prop
  | nothing {op : Conversing.Op} {s' : Conversing} (hturn : InTurn id s op)
      (hhistory : history id s' = history id s)
      (hmessages : s'.db.messages.filter (·.conversationID = id) =
        s.db.messages.filter (·.conversationID = id))
      (hinserting : ∀ r, Inserting id "assistant" s' r ↔ Inserting id "assistant" s r) :
      Stores id s op s'
  | question {r : ℕ} {outcome : Outcome} {s' : Conversing} {m : Message} (hm : m.Asks)
      (hnow : m.createdAt = outcome.now)
      (hasks : Inserting id "user" s r) (hwaits : ¬ Inserting id "assistant" s r)
      (hup : outcome.unavailable = false) (hhistory : history id s' = (r, m) :: history id s)
      (hmessages : s'.db.messages.filter (·.conversationID = id) =
        s.db.messages.filter (·.conversationID = id) ++ [m])
      (hinserting : ∀ other, Inserting id "assistant" s' other ↔
        other = r ∨ Inserting id "assistant" s other) : Stores id s (.call r outcome) s'
  | answer {r : ℕ} {outcome : Outcome} {s' : Conversing} {m : Message} (hm : m.Answers)
      (hnow : m.createdAt = outcome.now) (hasks : ¬ Inserting id "user" s r)
      (hwaits : Inserting id "assistant" s r) (hup : outcome.unavailable = false)
      (hhistory : history id s' = (r, m) :: history id s)
      (hmessages : s'.db.messages.filter (·.conversationID = id) =
        s.db.messages.filter (·.conversationID = id) ++ [m])
      (hinserting : ∀ other, Inserting id "assistant" s' other ↔
        other ≠ r ∧ Inserting id "assistant" s other) : Stores id s (.call r outcome) s'
  | torn {r : ℕ} {outcome : Outcome} {s' : Conversing} (hwaits : Inserting id "assistant" s r)
      (hdown : outcome.unavailable = true) (hhistory : history id s' = history id s)
      (hmessages : s'.db.messages.filter (·.conversationID = id) =
        s.db.messages.filter (·.conversationID = id))
      (hinserting : ∀ other, Inserting id "assistant" s' other ↔
        other ≠ r ∧ Inserting id "assistant" s other) : Stores id s (.call r outcome) s'

theorem history_cons {w : World} {requests : List Request} {e : ℕ × Message}
    {log : List (ℕ × Message)} : history id ⟨w, requests, e :: log⟩ =
      if e.2.conversationID = id then e :: history id ⟨w, requests, log⟩
      else history id ⟨w, requests, log⟩ := by
  simp [history, List.filter_cons]

theorem messages_insert {w : World} {message : Message} :
    (w.insert message).db.messages.filter (·.conversationID = id) =
      w.db.messages.filter (·.conversationID = id) ++
        if message.conversationID = id then [message] else [] := by
  simp [World.insert, List.filter_append, List.filter_cons]

theorem inserting_iff {request : Request} {role : String}
    (hbefore : s.requests[r]? = some request) :
    Inserting id role s r ↔ request.Inserts id role := by
  simp only [Inserting, hbefore, Option.some.injEq, exists_eq_left']

theorem inserting_same {w : World} {log : List (ℕ × Message)} {request request' : Request}
    (hbefore : s.requests[r]? = some request) (hnot : ¬ request.Inserts id "assistant")
    (hnot' : ¬ request'.Inserts id "assistant") (other : ℕ) :
    Inserting id "assistant" ⟨w, s.requests.set r request', log⟩ other ↔
      Inserting id "assistant" s other := by
  rw [inserting_set hbefore]
  split_ifs with hother
  · rw [hother, inserting_iff hbefore]
    exact iff_of_false hnot' hnot
  · exact Iff.rfl

theorem inserting_asked {w : World} {log : List (ℕ × Message)} {request request' : Request}
    (hbefore : s.requests[r]? = some request) (hinserts : request'.Inserts id "assistant")
    (other : ℕ) : Inserting id "assistant" ⟨w, s.requests.set r request', log⟩ other ↔
      other = r ∨ Inserting id "assistant" s other := by
  rw [inserting_set hbefore]
  split_ifs with hother
  · exact iff_of_true hinserts (Or.inl hother)
  · exact (or_iff_right hother).symm

theorem inserting_left {w : World} {log : List (ℕ × Message)} {request request' : Request}
    (hbefore : s.requests[r]? = some request) (hnot' : ¬ request'.Inserts id "assistant")
    (other : ℕ) : Inserting id "assistant" ⟨w, s.requests.set r request', log⟩ other ↔
      other ≠ r ∧ Inserting id "assistant" s other := by
  rw [inserting_set hbefore]
  split_ifs with hother
  · exact iff_of_false hnot' fun h => h.1 hother
  · exact (and_iff_right hother).symm

theorem inTurn_of_not {outcome : Outcome} {request : Request}
    (hbefore : s.requests[r]? = some request)
    (huser : outcome.unavailable = false → ¬ request.Inserts id "user")
    (hassistant : ¬ request.Inserts id "assistant") : InTurn id s (.call r outcome) := by
  refine ⟨fun hinserting hup => ?_, fun hinserting => ?_⟩
  · exact absurd ((inserting_iff hbefore).mp hinserting) (huser hup)
  · exact absurd ((inserting_iff hbefore).mp hinserting) hassistant

theorem not_inserts_of_ne {own : UUID} {known : Learnt} {role : String}
    {work : Async (Except Failure Message)} (h : own ≠ id) :
    ¬ Request.Inserts id role ⟨own, work, known⟩ := fun hinserts => h hinserts.1

theorem not_inserts_call {own : UUID} {known : Learnt} {role : String} {c : Call}
    {next : Call.Answer c → Async (Except Failure Message)}
    (h : ∀ text, c ≠ .createMessage own role text) :
    ¬ Request.Inserts id role ⟨own, .call c next, known⟩ := by
  intro hinserts
  obtain ⟨rfl, text, next', hwork⟩ := hinserts
  exact h text (Program.call.inj hwork).1

theorem stores_nothing {w : World} {outcome : Outcome} {request request' : Request}
    (hbefore : s.requests[r]? = some request)
    (huser : outcome.unavailable = false → ¬ request.Inserts id "user")
    (hnot : ¬ request.Inserts id "assistant") (hnot' : ¬ request'.Inserts id "assistant")
    (hmessages : w.db.messages = s.db.messages) :
    Stores id s (.call r outcome) ⟨w, s.requests.set r request', s.log⟩ :=
  .nothing (inTurn_of_not hbefore huser hnot) rfl (by rw [hmessages])
    (inserting_same hbefore hnot hnot')

theorem stores_elsewhere {outcome : Outcome} {request request' : Request} {message : Message}
    (hbefore : s.requests[r]? = some request) (hne : request.conversationID ≠ id)
    (hne' : request'.conversationID ≠ id) (hmessage : message.conversationID ≠ id) :
    Stores id s (.call r outcome)
      ⟨s.toWorld.insert message, s.requests.set r request', (r, message) :: s.log⟩ := by
  apply Stores.nothing
  · exact inTurn_of_not hbefore (fun _ h => hne h.1) fun h => hne h.1
  · rw [history_cons, if_neg hmessage]
    rfl
  · rw [messages_insert, if_neg hmessage, List.append_nil]
  · exact inserting_same hbefore (fun h => hne h.1) fun h => hne' h.1

theorem stores_call {outcome : Outcome} (hs : AllStaged cfg s)
    (h : (conversing cfg).step s (.call r outcome) = some s') :
    Stores id s (.call r outcome) s' := by
  obtain ⟨own, c, next, known, answer, w', hbefore, hrespond, rfl⟩ := call_answered h
  have hturn : Turn cfg own known c next answer :=
    (hs _ (List.mem_of_getElem? hbefore)).turn answer
  cases hturn with
  | look hlooks before after =>
      have hworld : w' = s.toWorld := by
        have hsame : (respond cfg outcome c s.toWorld).2 = s.toWorld := respond_looks hlooks
        rwa [hrespond] at hsame
      have hlogged : logged r c answer = none := by
        cases c <;> first | rfl | cases hlooks
      have hcall : ∀ {role} text, c ≠ .createMessage own role text := by
        intro role text heq
        subst heq
        cases hlooks
      rw [hlogged, hworld]
      exact stores_nothing hbefore (fun _ => not_inserts_call hcall) (not_inserts_call hcall)
        after.not_inserts rfl
  | @asked content next message before after =>
      obtain ⟨hup, hmessage, rfl⟩ := createMessage_ok hrespond
      by_cases hown : own = id
      · subst hown
        have hasks : Inserting own "user" s r :=
          (inserting_iff hbefore).mpr ⟨rfl, content, next, rfl⟩
        have hwaits : ¬ Inserting own "assistant" s r := fun hinserting =>
          before.not_inserts ((inserting_iff hbefore).mp hinserting)
        refine .question (congrArg Message.role hmessage) (congrArg Message.createdAt hmessage)
          hasks hwaits hup ?_ ?_ (inserting_asked hbefore after.inserts)
        · exact history_cons.trans (if_pos (hmessage ▸ rfl))
        · rw [messages_insert, if_pos (hmessage ▸ rfl)]
      · exact stores_elsewhere hbefore hown hown (hmessage ▸ hown)
  | @refused content next e failure before after =>
      obtain ⟨hdown, rfl⟩ := createMessage_error hrespond
      refine stores_nothing hbefore (fun hup => ?_) before.not_inserts ?_ rfl
      · cases hup.symm.trans hdown
      · rw [after]
        exact not_inserts_ret
  | @answered text next message after =>
      obtain ⟨hup, hmessage, rfl⟩ := createMessage_ok hrespond
      by_cases hown : own = id
      · subst hown
        have hasks : ¬ Inserting own "user" s r := fun hinserting =>
          not_inserts_call (by simp) ((inserting_iff hbefore).mp hinserting)
        have hwaits : Inserting own "assistant" s r :=
          (inserting_iff hbefore).mpr ⟨rfl, text, next, rfl⟩
        refine .answer (congrArg Message.role hmessage) (congrArg Message.createdAt hmessage)
          hasks hwaits hup ?_ ?_ (inserting_left hbefore after.not_inserts)
        · exact history_cons.trans (if_pos (hmessage ▸ rfl))
        · rw [messages_insert, if_pos (hmessage ▸ rfl)]
      · exact stores_elsewhere hbefore hown hown (hmessage ▸ hown)
  | @torn text next e failure after =>
      obtain ⟨hdown, rfl⟩ := createMessage_error hrespond
      have hret : ∀ known, ¬ Request.Inserts id "assistant" ⟨own, next (.error e), known⟩ := by
        intro known
        rw [after]
        exact not_inserts_ret
      by_cases hown : own = id
      · subst hown
        exact .torn ((inserting_iff hbefore).mpr ⟨rfl, text, next, rfl⟩) hdown rfl rfl
          (inserting_left hbefore (hret _))
      · exact stores_nothing hbefore (fun _ => not_inserts_of_ne hown) (not_inserts_of_ne hown)
          (hret _) rfl
  | published after =>
      have hmessages : w'.db.messages = s.db.messages := by
        rw [← (Prod.mk.inj hrespond).2]
      exact stores_nothing hbefore (fun _ => not_inserts_call (by simp))
        (not_inserts_call (by simp)) after.not_inserts hmessages
  | @updated total next answer message after =>
      have hmessages : w'.db.messages = s.db.messages := by
        have hsame : (respond cfg outcome (.updateTotalTokens own total) s.toWorld).2.db.messages =
            s.db.messages := messages_update
        rwa [hrespond] at hsame
      refine stores_nothing hbefore (fun _ => not_inserts_call (by simp))
        (not_inserts_call (by simp)) ?_ hmessages
      rw [after]
      exact not_inserts_ret

theorem stores_step (hs : AllStaged cfg s) (h : (conversing cfg).step s op = some s') :
    Stores id s op s' := by
  cases op with
  | start own model content =>
      cases h
      refine .nothing trivial rfl rfl fun r => ?_
      unfold Inserting
      rcases Nat.lt_trichotomy r s.requests.length with hr | rfl | hr
      · rw [List.getElem?_append_left hr]
      · rw [List.getElem?_concat_length, List.getElem?_eq_none (Nat.le_refl _)]
        refine iff_of_false ?_ (by simp)
        intro hinserting
        obtain ⟨request, hrequest, hinserts⟩ := hinserting
        obtain rfl := Option.some.inj hrequest
        exact addMessageAndCallChat_asking.not_inserts hinserts
      · have hnone : (s.requests ++ [⟨own, addMessageAndCallChat cfg own model content,
            ⟨none, none⟩⟩])[r]? = none := by
          rw [List.getElem?_eq_none_iff, List.length_append, List.length_singleton]
          omega
        rw [hnone, List.getElem?_eq_none hr.le]
  | call r outcome => exact stores_call hs h
  | users users =>
      cases h
      exact .nothing trivial rfl rfl fun r => Iff.rfl

theorem Staged.asking_of_inserts {own : UUID} {known known' : Learnt}
    {work : Async (Except Failure Message)} (h : Staged cfg own known work)
    (hinserts : Request.Inserts id "user" ⟨own, work, known'⟩) : Asking cfg own known work := by
  obtain ⟨-, text, next, hwork⟩ := hinserts
  dsimp only at hwork
  cases h with
  | asking h => exact h
  | answering h =>
      obtain ⟨_, _, hcall, -⟩ := h
      have hrole := role_of_call (hwork.symm.trans hcall)
      exact absurd hrole (by decide)
  | billing h =>
      obtain ⟨_, _, hcall, -⟩ := h
      cases hwork.symm.trans hcall
  | updating h =>
      obtain ⟨_, _, _, -, -, hcall, -⟩ := h
      cases hwork.symm.trans hcall
  | done => cases hwork

theorem Conducted.new (hs : Conducted cfg id s) (hasks : Inserting id "user" s r) (m : Message) :
    (r, m) ∉ history id s := by
  obtain ⟨⟨own, work, known⟩, hrequest, hinserts⟩ := hasks
  have hasking := (hs.staged _ (List.mem_of_getElem? hrequest)).asking_of_inserts hinserts
  obtain ⟨rfl, text, next, hwork⟩ := hinserts
  dsimp only at hwork hasking
  rw [hwork] at hrequest hasking
  exact hs.unasked r _ _ known hrequest hasking m

/-- A step keeps the dialogue exactly when it stores in turn. -/
theorem dialogues_step_iff (hs : Conducted cfg id s)
    (hdialogue : Exchange.Dialogues Message.Asks Message.Answers Message.createdAt
      (Inserting id "assistant" s) (history id s))
    (h : (conversing cfg).step s op = some s') :
    Exchange.Dialogues Message.Asks Message.Answers Message.createdAt
      (Inserting id "assistant" s') (history id s') ↔ InTurn id s op := by
  have hstores : Stores id s op s' := stores_step hs.staged h
  cases hstores with
  | nothing hturn hhistory hmessages hinserting =>
      rw [dialogues_congr hhistory hinserting]
      exact iff_of_true hdialogue hturn
  | @question r outcome s' m hm hnow hasks hwaits hup hhistory hmessages hinserting =>
      rw [hhistory, Exchange.question_iff (hs.new hasks) hm hs.opened
        ((hinserting r).mpr (Or.inl rfl)) hdialogue, hnow]
      constructor
      · intro hlatest
        exact ⟨fun _ _ => hlatest, fun hinserting => absurd hinserting hwaits⟩
      · intro hturn
        exact hturn.1 hasks hup
  | @answer r outcome s' m hm hnow hasks hwaits hup hhistory hmessages hinserting =>
      rw [hhistory, Exchange.answer_iff (hs.opened r hwaits) hm (fun _ => Message.Asks.not_answers)
        hdialogue, hnow]
      constructor
      · intro hlatest
        exact ⟨fun hinserting => absurd hinserting hasks, fun _ => ⟨hup, hlatest⟩⟩
      · intro hturn
        exact (hturn.2 hwaits).2
  | @torn r outcome s' hwaits hdown hhistory hmessages hinserting =>
      apply iff_of_false
      · intro hafter
        obtain ⟨l, hl⟩ := Exchange.exists_reads Message.createdAt (history id s)
        obtain ⟨⟨q, hq⟩, hnone⟩ := hs.opened r hwaits
        rw [hhistory] at hafter
        obtain ⟨-, -, -, -, hpending⟩ := (hafter l hl).open_last (hl.1.mem_iff.mpr hq)
          fun a ha => hnone a (hl.1.mem_iff.mp ha)
        exact ((hinserting r).mp hpending).1 rfl
      · intro hturn
        cases hdown.symm.trans (hturn.2 hwaits).1

theorem Stores.stored (h : Stores id s op s')
    (hs : (history id s).map Prod.snd = (s.db.messages.filter (·.conversationID = id)).reverse) :
    (history id s').map Prod.snd = (s'.db.messages.filter (·.conversationID = id)).reverse := by
  cases h with
  | nothing hturn hhistory hmessages hinserting => rw [hhistory, hmessages, hs]
  | question hm hnow hasks hwaits hup hhistory hmessages hinserting =>
      rw [hhistory, hmessages, List.reverse_append, List.map_cons, hs]
      rfl
  | answer hm hnow hasks hwaits hup hhistory hmessages hinserting =>
      rw [hhistory, hmessages, List.reverse_append, List.map_cons, hs]
      rfl
  | torn hwaits hdown hhistory hmessages hinserting => rw [hhistory, hmessages, hs]

theorem open_cons {m : Message} {other : ℕ} (hne : other ≠ r)
    (h : Exchange.Open Message.Answers (history id s) other) :
    Exchange.Open Message.Answers ((r, m) :: history id s) other := by
  obtain ⟨⟨q, hq⟩, hnone⟩ := h
  refine ⟨⟨q, List.mem_cons_of_mem _ hq⟩, fun a ha => ?_⟩
  rcases List.mem_cons.mp ha with heq | ha
  · exact absurd (congrArg Prod.fst heq) hne
  · exact hnone a ha

theorem Conducted.opened_step (hs : Conducted cfg id s) (h : Stores id s op s') (other : ℕ)
    (hother : Inserting id "assistant" s' other) :
    Exchange.Open Message.Answers (history id s') other := by
  cases h with
  | nothing hturn hhistory hmessages hinserting =>
      rw [hhistory]
      exact hs.opened other ((hinserting other).mp hother)
  | @question r outcome s' m hm hnow hasks hwaits hup hhistory hmessages hinserting =>
      rw [hhistory]
      by_cases hr : other = r
      · subst hr
        refine ⟨⟨m, List.mem_cons_self⟩, fun a ha => ?_⟩
        rcases List.mem_cons.mp ha with heq | ha
        · cases heq
          exact hm.not_answers
        · exact absurd ha (hs.new hasks a)
      · exact open_cons hr (hs.opened other (((hinserting other).mp hother).resolve_left hr))
  | @answer r outcome s' m hm hnow hasks hwaits hup hhistory hmessages hinserting =>
      rw [hhistory]
      obtain ⟨hne, hbefore⟩ := (hinserting other).mp hother
      exact open_cons hne (hs.opened other hbefore)
  | torn hwaits hdown hhistory hmessages hinserting =>
      rw [hhistory]
      exact hs.opened other ((hinserting other).mp hother).2

theorem started_step (hs : ∀ r m, (r, m) ∈ s.log → r < s.requests.length)
    (h : (conversing cfg).step s op = some s') (r : ℕ) (m : Message) (hlog : (r, m) ∈ s'.log) :
    r < s'.requests.length := by
  cases op with
  | start own model content =>
      cases h
      rw [List.length_append]
      exact Nat.lt_add_right _ (hs r m hlog)
  | call r' outcome =>
      obtain ⟨own, c, next, known, answer, w', hbefore, hrespond, rfl⟩ := call_answered h
      rw [List.length_set]
      rcases List.mem_append.mp hlog with hnew | hold
      · obtain rfl : r = r' := by
          cases c with
          | createMessage id role text =>
              obtain ⟨message, -, hpair⟩ := Option.map_eq_some_iff.mp (Option.mem_toList.mp hnew)
              exact (congrArg Prod.fst hpair).symm
          | _ => cases hnew
        exact (List.getElem?_eq_some_iff.mp hbefore).1
      · exact hs r m hold
  | users users =>
      cases h
      exact hs r m hlog

theorem Turn.look_of_asking {own : UUID} {known known' : Learnt} {c c' : Call}
    {next : Call.Answer c → Async (Except Failure Message)} {answer : Call.Answer c}
    {next' : Call.Answer c' → Async (Except Failure Message)}
    (h : Turn cfg own known c next answer) (hcall : next answer = .call c' next')
    (hasking : Asking cfg own known' (.call c' next')) :
    c.looks own = true ∧ Asking cfg own known (.call c next) := by
  cases h with
  | look hlooks before after => exact ⟨hlooks, before⟩
  | asked before after =>
      rw [hcall] at after
      have hinserts : Request.Inserts own "assistant" ⟨own, .call c' next', known'⟩ := after.inserts
      exact absurd hinserts hasking.not_inserts
  | refused before after => cases hcall.symm.trans after
  | answered after =>
      obtain ⟨_, _, hpublish, -⟩ := after
      cases hcall.symm.trans hpublish
      cases hasking with
      | look hlooks => cases hlooks
  | torn after => cases hcall.symm.trans after
  | published after =>
      obtain ⟨_, _, _, -, -, hupdate, -⟩ := after
      cases hcall.symm.trans hupdate
      cases hasking with
      | look hlooks => cases hlooks
  | updated after => cases hcall.symm.trans after

theorem Stores.mem_history (h : Stores id s op s') {other : ℕ} {m : Message}
    (hmem : (other, m) ∈ history id s') :
    (other, m) ∈ history id s ∨ ∃ outcome, op = .call other outcome := by
  cases h with
  | nothing hturn hhistory hmessages hinserting => exact Or.inl (hhistory ▸ hmem)
  | question hm hnow hasks hwaits hup hhistory hmessages hinserting =>
      rw [hhistory] at hmem
      rcases List.mem_cons.mp hmem with heq | hold
      · cases heq
        exact Or.inr ⟨_, rfl⟩
      · exact Or.inl hold
  | answer hm hnow hasks hwaits hup hhistory hmessages hinserting =>
      rw [hhistory] at hmem
      rcases List.mem_cons.mp hmem with heq | hold
      · cases heq
        exact Or.inr ⟨_, rfl⟩
      · exact Or.inl hold
  | torn hwaits hdown hhistory hmessages hinserting => exact Or.inl (hhistory ▸ hmem)

theorem Conducted.unasked_step (hs : Conducted cfg id s)
    (h : (conversing cfg).step s op = some s') {r : ℕ} {c : Call}
    {next : Call.Answer c → Async (Except Failure Message)} {known : Learnt}
    (hrequest : s'.requests[r]? = some ⟨id, .call c next, known⟩)
    (hasking : Asking cfg id known (.call c next)) (m : Message) : (r, m) ∉ history id s' := by
  intro hmem
  have hold := (stores_step hs.staged h).mem_history hmem
  cases op with
  | start own model content =>
      have hmem : (r, m) ∈ history id s := hold.resolve_right (by simp)
      have hr := hs.started r m (List.mem_filter.mp hmem).1
      cases h
      rw [List.getElem?_append_left hr] at hrequest
      exact hs.unasked r c next known hrequest hasking m hmem
  | call r' outcome =>
      obtain ⟨own, c', next', known', answer, w', hbefore, hrespond, rfl⟩ := call_answered h
      by_cases hr : r = r'
      · subst hr
        have hlength := (List.getElem?_eq_some_iff.mp hbefore).1
        have hafter := Option.some.inj ((List.getElem?_set_self hlength).symm.trans hrequest)
        have hown : own = id := congrArg Request.conversationID hafter
        have hcall : next' answer = .call c next := congrArg Request.work hafter
        subst hown
        obtain ⟨hlooks, hbefore'⟩ :=
          ((hs.staged _ (List.mem_of_getElem? hbefore)).turn answer).look_of_asking hcall hasking
        have hlogged : logged r c' answer = none := by
          cases c' <;> first | rfl | cases hlooks
        rw [hlogged] at hmem
        exact hs.unasked r c' next' known' hbefore hbefore' m hmem
      · have hmem' : (r, m) ∈ history id s := by
          refine hold.resolve_right fun hop => ?_
          obtain ⟨outcome', hop⟩ := hop
          exact hr (Conversing.Op.call.inj hop).1.symm
        have hsame := (List.getElem?_set_ne (Ne.symm hr)).symm.trans hrequest
        exact hs.unasked r c next known hsame hasking m hmem'
  | users users =>
      have hmem : (r, m) ∈ history id s := hold.resolve_right (by simp)
      cases h
      exact hs.unasked r c next known hrequest hasking m hmem

theorem conducted_step (hs : Conducted cfg id s) (h : (conversing cfg).step s op = some s') :
    Conducted cfg id s' where
  staged := allStaged_step hs.staged h
  stored := (stores_step hs.staged h).stored hs.stored
  started := started_step hs.started h
  unasked _ _ _ _ := hs.unasked_step h
  opened := hs.opened_step (stores_step hs.staged h)

/-- From an empty conversation on, the history is a dialogue at every moment, exactly when every
message is stored in turn. -/
theorem dialogue_kept_iff (cfg : Config) (id : UUID) (w : World)
    (hempty : w.db.getMessagesByConversationID id = []) (ops : List Conversing.Op) :
    (∀ n, IsDialogue id ((conversing cfg).run ⟨w, [], []⟩ (ops.take n))) ↔
      (conversing cfg).Throughout (InTurn id) ⟨w, [], []⟩ ops := by
  have hnone : w.db.messages.filter (·.conversationID = id) = [] := by
    apply List.eq_nil_of_length_eq_zero
    rw [← List.length_insertionSort (·.createdAt ≤ ·.createdAt)]
    exact congrArg List.length hempty
  have hstart : Conducted cfg id ⟨w, [], []⟩ := by
    refine ⟨fun request h => ?_, ?_, fun r m h => ?_, fun r c next known h => ?_, fun r h => ?_⟩
    · cases h
    · rw [hnone]
      rfl
    · cases h
    · cases h
    · obtain ⟨request, hrequest, -⟩ := h
      cases hrequest
  have hdialogue : Exchange.Dialogues Message.Asks Message.Answers Message.createdAt
      (Inserting id "assistant" ⟨w, [], []⟩) (history id ⟨w, [], []⟩) := by
    intro l hl
    rw [hl.1.eq_nil]
    exact .nil
  have hconducted : ∀ n, Conducted cfg id ((conversing cfg).run ⟨w, [], []⟩ (ops.take n)) :=
    fun n => run_invariant (fun hs h => conducted_step hs h) hstart _
  rw [← always_iff_throughout (I := Conducted cfg id) (fun hs hd h => dialogues_step_iff hs hd h)
    (fun hs _ h _ => conducted_step hs h) hstart hdialogue ops]
  exact forall_congr' fun n => ⟨fun h => h.dialogue, fun h => ⟨(hconducted n).stored, h⟩⟩

end Steps

namespace Sample

/-- One request, which stores its answer a second after its question. -/
def inTurn : List Conversing.Op :=
  asks convoID :: (reads 0 ++ [.call 0 ⟨false, none, none, 0, 1735000000⟩,
    .call 0 ⟨false, none, none, 1, 1735000001⟩])

section Alone

variable {work : Async (Except Failure Message)} {known : Learnt} {role : String}

theorem inserting_alone : Inserting convoID role (reader [⟨convoID, work, known⟩] [] []) 0 ↔
    ∃ text next, work = .call (.createMessage convoID role text) next := by
  constructor
  · rintro ⟨request, hrequest, hinserts⟩
    obtain rfl := Option.some.inj hrequest
    exact hinserts.2
  · exact fun hwork => ⟨_, rfl, rfl, hwork⟩

theorem inTurn_of_not_inserts {outcome : Outcome}
    (h : ∀ role text next, work ≠ .call (.createMessage convoID role text) next) :
    InTurn convoID (reader [⟨convoID, work, known⟩] [] []) (.call 0 outcome) := by
  have hnot (role : String) : ¬ Inserting convoID role (reader [⟨convoID, work, known⟩] [] []) 0 :=
    fun hinserting => by
      obtain ⟨text, next, hwork⟩ := inserting_alone.mp hinserting
      exact h role text next hwork
  exact ⟨fun hinserting => absurd hinserting (hnot _), fun hinserting => absurd hinserting (hnot _)⟩

end Alone

theorem inTurn_question : InTurn convoID (reader [told] [] [])
    (.call 0 ⟨false, none, none, 0, 1735000000⟩) := by
  have hanswer : ¬ Inserting convoID "assistant" (reader [told] [] []) 0 := fun hinserting => by
    obtain ⟨text, next, hwork⟩ := inserting_alone.mp hinserting
    exact absurd (role_of_call hwork) (by decide)
  refine ⟨fun _ _ => ⟨fun e he => (List.not_mem_nil he).elim, fun other hother => ?_⟩,
    fun hinserting => absurd hinserting hanswer⟩
  cases other with
  | zero => exact hanswer hother
  | succ other =>
      obtain ⟨request, hrequest, -⟩ := hother
      cases hrequest

theorem step_question : ∃ s, (conversing cfg).step (reader [told] [] [])
      (.call 0 ⟨false, none, none, 0, 1735000000⟩) = some s ∧
    InTurn convoID s (.call 0 ⟨false, none, none, 1, 1735000001⟩) := by
  refine ⟨_, rfl, fun hinserting => ?_, fun _ => ⟨rfl, fun e he => ?_⟩⟩
  · obtain ⟨request, hrequest, -, text, next, hwork⟩ := hinserting
    obtain rfl := Option.some.inj hrequest
    exact absurd (role_of_call hwork) (by decide)
  · obtain rfl := List.mem_singleton.mp (List.mem_filter.mp he).1
    decide

theorem inTurn_inTurn : (conversing cfg).Throughout (InTurn convoID)
    ⟨⟨holding 500 [], []⟩, [], []⟩ inTurn := by
  have hstart : (conversing cfg).step ⟨⟨holding 500 [], []⟩, [], []⟩ (asks convoID) =
      some (reader [⟨convoID, asking, ⟨none, none⟩⟩] [] []) := rfl
  have hchat (role text : String) (next : Except DbError Message → Async (Except Failure Message)) :
      chatting 500 ≠ .call (.createMessage convoID role text) next := by
    have hroom : ¬ remainingContextTokens cfg conversation < 1 := by decide
    have hfunded : ¬ (user 500).tokens < 1 := by decide
    rw [chatting, callChat, if_neg hroom, if_neg hfunded]
    intro hwork
    cases hwork
  obtain ⟨s, hquestion, hanswer⟩ := step_question
  rw [inTurn, reads, throughout_cons_of_step hstart, List.cons_append, List.cons_append,
    List.cons_append, List.cons_append, List.nil_append,
    throughout_cons_of_step (step_history rfl), List.set_cons_zero,
    throughout_cons_of_step (step_conversation rfl), List.set_cons_zero,
    throughout_cons_of_step (step_user rfl), List.set_cons_zero,
    throughout_cons_of_step (step_told rfl), List.set_cons_zero,
    throughout_cons_of_step hquestion]
  refine ⟨trivial, inTurn_of_not_inserts ?_, inTurn_of_not_inserts ?_, inTurn_of_not_inserts ?_,
    inTurn_of_not_inserts hchat, inTurn_question, fun _ => hanswer, trivial⟩
  -- the three reads insert nothing
  all_goals
    intro role text next hwork
    cases hwork

theorem dialogue_kept_iff_inTurn :
    (conversing cfg).Throughout (InTurn convoID) ⟨⟨holding 500 [], []⟩, [], []⟩ inTurn ∧
    ∀ n, IsDialogue convoID
      ((conversing cfg).run ⟨⟨holding 500 [], []⟩, [], []⟩ (inTurn.take n)) :=
  ⟨inTurn_inTurn,
    (dialogue_kept_iff cfg convoID ⟨holding 500 [], []⟩ rfl inTurn).mpr inTurn_inTurn⟩

/-- Two questions, one second apart. -/
def questions : List Conversing.Op :=
  [.call 0 ⟨false, none, none, 0, 1735000000⟩, .call 1 ⟨false, none, none, 1, 1735000001⟩]

/-- Two requests that both store their question before either stores its answer. -/
def crossing : List Conversing.Op :=
  [asks convoID, asks convoID] ++ reads 0 ++ reads 1 ++ questions

def asked0 : ℕ × Message := (0, ⟨0, convoID, "user", "hi", 1735000000⟩)
def asked1 : ℕ × Message := (1, ⟨1, convoID, "user", "hi", 1735000001⟩)

theorem history_crossing :
    history convoID ((conversing cfg).run ⟨⟨holding 500 [], []⟩, [], []⟩ crossing) =
      [asked1, asked0] := by
  have hrun : (conversing cfg).run ⟨⟨holding 500 [], []⟩, [], []⟩ crossing =
      (conversing cfg).run (reader [told, told] [] []) questions := by
    rw [← run_both_read, ← run_append]
    rfl
  rw [hrun]
  rfl

/-- No call fails, and a question is followed by another question. -/
theorem history_broken :
    (∀ r outcome, .call r outcome ∈ crossing → outcome.unavailable = false) ∧
    ¬ ∀ n, IsDialogue convoID ((conversing cfg).run ⟨⟨holding 500 [], []⟩, [], []⟩
      (crossing.take n)) := by
  constructor
  · intro r outcome hmem
    simp only [crossing, asks, reads, questions, List.cons_append, List.nil_append, List.mem_cons,
      Conversing.Op.call.injEq, List.not_mem_nil, or_false, reduceCtorEq, false_or] at hmem
    rcases hmem with h | h | h | h | h | h | h | h | h | h <;> rw [h.2] <;> rfl
  · intro hall
    have hdialogue := (hall crossing.length).dialogue
    rw [List.take_length, history_crossing] at hdialogue
    have hreads : Exchange.Reads Message.createdAt [asked1, asked0] [asked0, asked1] := by
      refine ⟨List.Perm.swap _ _ _, ?_⟩
      simp [asked0, asked1]
    cases hdialogue _ hreads

end Sample

end DsProxy.Backend
