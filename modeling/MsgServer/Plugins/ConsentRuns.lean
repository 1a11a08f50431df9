import Mathlib.Data.Set.Insert
import MsgServer.Plugins.ConsentTree

/-!
No way around the consent of the two sides. The rows of dm_conversations are one for each
pair of subjects, a request adds one with its introduction, a decision closes one that is
pending, and every other operation leaves them alone; the step lemma has one case for each
operation, and the theorem is about every step of every run.
-/

namespace MsgServer.Consent

open Library Session Policy Authorization ResourceTree Content
open Conversations (Secluded)

variable {app : App}

/-- The rows of dm_conversations: one for each pair, with its initiator among the two. -/
structure Paired (app : App) (store : Store) : Prop where
  digest : ∀ row ∈ store.conversations.rows,
    row.pair = app.pairDigest (row.participantA, row.participantB)
  ordered : ∀ row ∈ store.conversations.rows, row.participantA < row.participantB
  parties : ∀ row ∈ store.conversations.rows, participates row (some row.initiator)

theorem sets_ordered {a b c d : String} (left : a < b) (right : c < d)
    (same : ({a, b} : Set String) = {c, d}) : a = c ∧ b = d := by
  rcases Set.pair_eq_pair_iff.mp same with straight | ⟨rfl, rfl⟩
  · exact straight
  · exact (String.lt_asymm left right).elim

theorem paired_single {store : Store} (paired : Paired app store) :
    ∀ left ∈ store.conversations.rows, ∀ right ∈ store.conversations.rows,
      ({left.participantA, left.participantB} : Set String) =
        {right.participantA, right.participantB} → left = right := by
  intro left inLeft right inRight same
  obtain ⟨sameA, sameB⟩ := sets_ordered (paired.ordered left inLeft)
    (paired.ordered right inRight) same
  apply Table.eq_of_key_eq inLeft inRight
  rw [paired.digest left inLeft, paired.digest right inRight, sameA, sameB]

theorem participants_sides (first second : String) :
    (first = (Conversations.participants first second).1 ∨
      first = (Conversations.participants first second).2) := by
  unfold Conversations.participants
  split <;> simp

section Talks

variable {store next : Store}

/-- What opening a conversation puts into the two tables. -/
theorem openConversation_ok {request : Conversations.DmRequest} {sender : String}
    (done : Conversations.openConversation app store request sender = .ok next) :
    ∃ grown row, insertResource app store (request.row app) = .ok grown ∧
      row = (⟨app.pairDigest (Conversations.participants sender request.recipient),
        (request.row app).id, (Conversations.participants sender request.recipient).1,
        (Conversations.participants sender request.recipient).2, sender, .pending⟩ : Conversation) ∧
      row.participantA < row.participantB ∧
      ∃ listed, grown.conversations.insert row = some listed ∧
        next = { grown with conversations := listed } := by
  simp only [Conversations.openConversation, Program.except_bind_ok] at done
  obtain ⟨_, _, grown, made, opened⟩ := done
  simp only [Conversations.insertConversation, Program.except_bind_ok, require_ok, insertRow_ok,
    Program.except_pure, Except.ok.injEq] at opened
  obtain ⟨_, ordered, listed, inserted, rfl⟩ := opened
  exact ⟨grown, _, made, rfl, ordered.1, listed, inserted, rfl⟩

theorem dmRequest_ok {request : Conversations.DmRequest}
    (done : Conversations.dmRequest app store request = .ok next) :
    ∃ sender, request.context.principal.subject = some sender ∧
      ((∃ row, store.conversations.find?
          (app.pairDigest (Conversations.participants sender request.recipient)) = some row ∧
          next = store) ∨
        (store.conversations.find?
          (app.pairDigest (Conversations.participants sender request.recipient)) = none ∧
          Conversations.openConversation app store request sender = .ok next)) := by
  simp only [Conversations.dmRequest, Program.except_bind_ok] at done
  obtain ⟨sender, signed, _, _, _, _, _, _, _, _, _, _, _, _, answered⟩ := done
  refine ⟨sender, (signedSubject_ok signed).1, ?_⟩
  cases found : store.conversations.find?
      (app.pairDigest (Conversations.participants sender request.recipient)) with
  | none =>
      rw [found] at answered
      exact Or.inr ⟨rfl, answered⟩
  | some row =>
      simp only [found, Conversations.dmRequestWith, Program.except_bind_ok, Program.except_pure,
        Except.ok.injEq] at answered
      obtain ⟨_, _, rfl⟩ := answered
      exact Or.inl ⟨row, rfl, rfl⟩

/-- The namespace root is in no conversation. -/
theorem root_outside (secluded : Secluded app store) {root : Resource}
    (found : resource app store app.namespaceRoot = .ok root) :
    ∀ conversation ∈ store.conversations.rows, root.id ≠ conversation.resourceId ∧
      ¬ Below app store root conversation.resourceId := by
  obtain ⟨upper, isUpper⟩ := secluded.apart
  have top : upper root.id := by
    rw [Conversations.resource_root found]
    exact isUpper.root
  have climbs : ∀ child topic : Resource, child ∈ store.resources.rows → upper child.id →
      Relation.TransGen (Under app store) child topic → upper topic.id := by
    intro child topic member inside path
    induction path using Relation.TransGen.head_induction_on with
    | single under =>
        obtain ⟨id, isParent, lookup⟩ := under
        exact isUpper.climbs _ member inside id topic isParent lookup
    | head under _ ih =>
        obtain ⟨id, isParent, lookup⟩ := under
        exact ih (resource_mem lookup) (isUpper.climbs _ member inside id _ isParent lookup)
  intro conversation recorded
  constructor
  · intro here
    rw [here] at top
    exact isUpper.clear conversation recorded top
  · rintro ⟨topic, path, isTop⟩
    have higher := climbs root topic (resource_mem found) top path
    rw [isTop] at higher
    exact isUpper.clear conversation recorded higher

theorem below_stored {row : Resource} {top : String} (below : Below app store row top) :
    ∃ topic ∈ store.resources.rows, topic.id = top := by
  obtain ⟨topic, path, isTop⟩ := below
  obtain ⟨_, _, under⟩ := Relation.TransGen.tail'_iff.mp path
  obtain ⟨_, _, lookup⟩ := under
  exact ⟨topic, resource_mem lookup, isTop⟩

theorem below_congr (same : next.resources = store.resources) {row : Resource} {top : String}
    (below : Below app next row top) : Below app store row top := by
  obtain ⟨topic, path, isTop⟩ := below
  refine ⟨topic, path.lift (fun row => row) ?_, isTop⟩
  rintro child parent ⟨id, isParent, lookup⟩
  rw [resource_congr same] at lookup
  exact ⟨id, isParent, lookup⟩

theorem paired_congr (paired : Paired app store) (same : next.conversations = store.conversations) :
    Paired app next := by
  refine ⟨?_, ?_, ?_⟩ <;> rw [same]
  · exact paired.digest
  · exact paired.ordered
  · exact paired.parties

/-- The conversation that a request opens, in the table. -/
theorem paired_open (paired : Paired app store) {request : Conversations.DmRequest}
    {sender : String} (done : Conversations.openConversation app store request sender = .ok next) :
    Paired app next := by
  obtain ⟨grown, row, made, shape, ordered, listed, inserted, rfl⟩ := openConversation_ok done
  have old := paired_congr paired (insertResource_conversations made).1
  refine ⟨?_, ?_, ?_⟩
  · intro other member
    rcases (Table.mem_insert inserted other).mp member with before | rfl
    · exact old.digest other before
    · rw [shape]
  · intro other member
    rcases (Table.mem_insert inserted other).mp member with before | rfl
    · exact old.ordered other before
    · exact ordered
  · intro other member
    rcases (Table.mem_insert inserted other).mp member with before | rfl
    · exact old.parties other before
    · rw [shape]
      rcases participants_sides sender request.recipient with first | second
      · exact Or.inl (congrArg some first)
      · exact Or.inr (congrArg some second)

theorem consented_apart {act : Act} (paired : Paired app store) (apart : Apart app store act next) :
    Consented app store act next where
  single := paired_single (paired_congr paired apart.conversations)
  parties := (paired_congr paired apart.conversations).parties
  kept := by
    intro conversation recorded
    rw [apart.conversations]
    exact Or.inl recorded
  opened := by
    intro conversation member absent
    rw [apart.conversations, Table.mem_iff_find?, absent] at member
    cases member
  created := by
    intro conversation member row present below
    rw [apart.conversations] at member
    rcases apart.placed conversation member row present below with old | sent
    · exact Or.inl old
    · exact Or.inr (Or.inr sent)
  edited := apart.edited

/-- Opening a conversation puts nothing into those that are there, and nothing but the
introduction into the new one. -/
theorem opened_placed (secluded : Secluded app store) {request : Conversations.DmRequest}
    {sender : String} {opened : Store}
    (done : Conversations.openConversation app store request sender = .ok opened)
    {conversation : Conversation} (recorded : conversation ∈ opened.conversations.rows)
    {child : Resource} (member : child ∈ opened.resources.rows)
    (below : Below app opened child conversation.resourceId) :
    child ∈ store.resources.rows ∧ Below app store child conversation.resourceId := by
  obtain ⟨grown, row, made, shape, _, listed, inserted, rfl⟩ := openConversation_ok done
  have below : Below app grown child conversation.resourceId := below_congr rfl below
  obtain ⟨parents, table, isTable, _⟩ := insertResource_ok made
  obtain ⟨root, atRoot⟩ := parents app.namespaceRoot rfl
  have isParent : (request.row app).parent = some root.id := by
    rw [Conversations.resource_root atRoot]
    rfl
  rcases below_insert secluded made isParent (resource_mem atRoot) member below with old | ⟨_, inside⟩
  · exact old
  · exfalso
    have fresh := (Table.find?_eq_none _ _).mp (Table.insert_fresh isTable)
    rcases (Table.mem_insert inserted conversation).mp recorded with before | rfl
    · rw [(insertResource_conversations made).1] at before
      have outside := root_outside secluded atRoot conversation before
      rcases inside with here | deeper
      · exact outside.1 here
      · exact outside.2 deeper
    · have isNew : (request.row app).id = conversation.resourceId := by rw [shape]
      rw [isNew] at fresh
      rcases inside with here | deeper
      · rw [← here] at fresh
        exact fresh (List.mem_map_of_mem (resource_mem atRoot))
      · obtain ⟨topic, stored, isTop⟩ := below_stored deeper
        rw [← isTop] at fresh
        exact fresh (List.mem_map_of_mem stored)

theorem opened_edited {request : Conversations.DmRequest} {sender : String} {opened : Store}
    (done : Conversations.openConversation app store request sender = .ok opened)
    {old row : Resource} (stored : old ∈ store.resources.rows)
    (member : row ∈ opened.resources.rows) (same : row.id = old.id) :
    row = old ∧ old ∈ opened.resources.rows := by
  obtain ⟨grown, _, made, _, _, listed, inserted, rfl⟩ := openConversation_ok done
  have equal := insert_edited made stored member same
  subst equal
  exact ⟨rfl, member⟩

theorem opened_stored {request : Conversations.DmRequest} {sender : String} {opened : Store}
    (done : Conversations.openConversation app store request sender = .ok opened)
    {old : Resource} (stored : old ∈ store.resources.rows) : old ∈ opened.resources.rows := by
  obtain ⟨grown, _, made, _, _, listed, inserted, rfl⟩ := openConversation_ok done
  obtain ⟨_, table, isTable, rfl⟩ := insertResource_ok made
  exact (Table.mem_insert isTable old).mpr (Or.inl stored)

/-- The conversation rows after an opening, and what is new among them. -/
theorem opened_rows {request : Conversations.DmRequest} {sender : String} {opened : Store}
    (done : Conversations.openConversation app store request sender = .ok opened)
    {conversation : Conversation} :
    (conversation ∈ store.conversations.rows → conversation ∈ opened.conversations.rows) ∧
      (conversation ∈ opened.conversations.rows →
        conversation ∈ store.conversations.rows ∨
          (store.conversations.find? conversation.pair = none ∧ conversation.state = .pending ∧
            conversation.initiator = sender ∧
              conversation.resourceId = (request.row app).id)) := by
  obtain ⟨grown, row, made, shape, _, listed, inserted, rfl⟩ := openConversation_ok done
  have same := (insertResource_conversations made).1
  constructor
  · intro member
    rw [← same] at member
    exact (Table.mem_insert inserted conversation).mpr (Or.inl member)
  · intro member
    rcases (Table.mem_insert inserted conversation).mp member with before | rfl
    · rw [same] at before
      exact Or.inl before
    · have fresh := Table.insert_fresh inserted
      rw [same] at fresh
      refine Or.inr ⟨fresh, ?_⟩
      rw [shape]
      exact ⟨rfl, rfl, rfl⟩

theorem topic_fresh {request : Conversations.DmRequest} {sender : String} {opened : Store}
    (done : Conversations.openConversation app store request sender = .ok opened) :
    request.row app ∉ store.resources.rows := by
  obtain ⟨grown, _, made, _, _, _, _, _⟩ := openConversation_ok done
  obtain ⟨_, table, isTable, _⟩ := insertResource_ok made
  intro stored
  exact (Table.find?_eq_none _ _).mp (Table.insert_fresh isTable) (List.mem_map_of_mem stored)

theorem consented_open {act : Act} (secluded : Secluded app store) (paired : Paired app store)
    {request : Conversations.DmRequest} {sender : String}
    (done : Conversations.openConversation app store request sender = .ok next) :
    Consented app store act next where
  single := paired_single (paired_open paired done)
  parties := (paired_open paired done).parties
  kept := fun conversation recorded => Or.inl ((opened_rows done).1 recorded)
  opened := by
    intro conversation member absent
    rcases (opened_rows done).2 member with before | ⟨_, pending, _⟩
    · rw [Table.mem_iff_find?, absent] at before
      cases before
    · exact pending
  created := by
    intro conversation member row present below
    obtain ⟨old, before⟩ := opened_placed secluded done member present below
    exact Or.inl ⟨row, old, rfl, before⟩
  edited := by
    intro conversation _ old stored _ row member same
    exact Or.inl (opened_edited done stored member same).1

/-- The introduction lands in the conversation just opened and nowhere else. -/
theorem consented_introduce (secluded : Secluded app store) (paired : Paired app store)
    {request : Conversations.DmRequest} {sender : String} {opened : Store}
    {introduction : NewResource} {other : Except Failure Unit}
    (isSender : request.context.principal.subject = some sender)
    (done : Conversations.openConversation app store request sender = .ok opened)
    (introduced : introduce app opened request introduction other = .ok next) :
    Consented app store (.operation (.dmRequest request (some introduction) other)) next := by
  have openedSecluded := Conversations.secluded_open secluded done
  obtain ⟨parent, author, lookup, isAuthor, inserted⟩ := createResource_ok introduced
  have talks := (insertResource_conversations inserted).1
  have topicStored : request.row app ∈ opened.resources.rows := by
    obtain ⟨grown, _, made, _, _, listed, _, rfl⟩ := openConversation_ok done
    obtain ⟨_, table, isTable, rfl⟩ := insertResource_ok made
    exact (Table.mem_insert isTable _).mpr (Or.inr rfl)
  have isTopic := resource_self topicStored lookup
  subst isTopic
  have sameAuthor : author = sender := by
    have same : request.context.principal.subject = some author := isAuthor
    rw [isSender] at same
    exact (Option.some.inj same).symm
  subst sameAuthor
  have pairedNext := paired_congr (paired_open paired done) talks
  refine ⟨paired_single pairedNext, pairedNext.parties, ?_, ?_, ?_, ?_⟩
  · intro conversation recorded
    rw [talks]
    exact Or.inl ((opened_rows done).1 recorded)
  · intro conversation member absent
    rw [talks] at member
    rcases (opened_rows done).2 member with before | ⟨_, pending, _⟩
    · rw [Table.mem_iff_find?, absent] at before
      cases before
    · exact pending
  · intro conversation member row present below
    rw [talks] at member
    rcases below_insert openedSecluded inserted rfl topicStored present below with
      ⟨earlier, before⟩ | ⟨rfl, inside⟩
    · obtain ⟨old, lower⟩ := opened_placed secluded done member earlier before
      exact Or.inl ⟨row, old, rfl, lower⟩
    · have here : (request.row app).id = conversation.resourceId := by
        rcases inside with here | deeper
        · exact here
        · -- The new topic itself lies in no conversation.
          obtain ⟨old, _⟩ := opened_placed secluded done member topicStored deeper
          exact (topic_fresh done old).elim
      rcases (opened_rows done).2 member with before | ⟨absent, pending, initiator, _⟩
      · obtain ⟨topic, found, _⟩ := secluded.placed conversation before
        rw [← here] at found
        have sameTopic := (opened_edited done (Table.find?_mem found) topicStored
          (Table.find?_key found).symm).1
        rw [sameTopic] at topicStored
        exact (topic_fresh done (sameTopic ▸ Table.find?_mem found)).elim
      · refine Or.inr (Or.inl ⟨request, introduction, other, rfl, absent, pending, ?_, rfl, ?_, rfl, ?_⟩)
        · rw [initiator]
          exact isSender
        · exact initiator.symm
        · rw [← here]
          rfl
  · intro conversation _ old stored _ row member same
    have kept := opened_stored done stored
    exact Or.inl (insert_edited inserted kept member same)

/-- What every state of the server satisfies. -/
structure Sound (app : App) (store : Store) : Prop where
  secluded : Secluded app store
  paired : Paired app store

theorem sound_apart {act : Act} (sound : Sound app store) (apart : Apart app store act next) :
    Sound app next ∧ Consented app store act next :=
  ⟨⟨apart.secluded, paired_congr sound.paired apart.conversations⟩,
    consented_apart sound.paired apart⟩

theorem dmRequest_consented (sound : Sound app store) {request : Conversations.DmRequest}
    {introduction : Option NewResource} {other : Except Failure Unit}
    (done : dmRequest app store request introduction other = .ok next) :
    Sound app next ∧
      Consented app store (.operation (.dmRequest request introduction other)) next := by
  obtain ⟨opened, requested, rest⟩ := (Program.except_bind_ok _ _ _).mp done
  obtain ⟨sender, isSender, ⟨row, found, same⟩ | ⟨absent, isOpen⟩⟩ := dmRequest_ok requested
  · subst same
    have refused : unmet app opened request = false := by
      simp [unmet, isSender, found]
    have unchanged : next = opened := by
      cases introduction with
      | none => exact (Except.ok.inj rest).symm
      | some introduction =>
          simp only [refused] at rest
          exact (Except.ok.inj rest).symm
    subst unchanged
    exact sound_apart sound (apart_same sound.secluded rfl rfl)
  · have secluded := Conversations.secluded_open sound.secluded isOpen
    have paired := paired_open sound.paired isOpen
    cases introduction with
    | none =>
        cases rest
        exact ⟨⟨secluded, paired⟩, consented_open sound.secluded sound.paired isOpen⟩
    | some introduction =>
        have met : unmet app store request = true := by
          simp [unmet, isSender, absent]
        simp only [met, if_true] at rest
        obtain ⟨_, _, _, _, inserted⟩ := createResource_ok rest
        refine ⟨⟨Conversations.secluded_insert secluded inserted, ?_⟩,
          consented_introduce sound.secluded sound.paired isSender isOpen rest⟩
        exact paired_congr paired (insertResource_conversations inserted).1

/-- A decision changes nothing, or the pending row of its conversation. -/
theorem dmDecision_ok {request : Conversations.DmDecision}
    (done : Conversations.dmDecision app store request = .ok next) :
    next = store ∨ ∃ row, row ∈ store.conversations.rows ∧
      Decided store ⟨request.context, request.conversationId⟩ row ∧
        next = { store with
          conversations :=
            store.conversations.modify row.pair (Conversations.decideRow request.desired) } := by
  simp only [Conversations.dmDecision, Program.except_bind_ok, requireRow_ok, require_ok] at done
  obtain ⟨sender, signed, _, _, row, isRow, _, inside, _, notInitiator, _, _, decided⟩ := done
  unfold Conversations.dmDecisionOn at decided
  split at decided
  · rename_i pending
    simp only [Program.except_bind_ok, require_ok, Program.except_pure, Except.ok.injEq] at decided
    obtain ⟨_, unblocked, rfl⟩ := decided
    obtain ⟨subject, actor, method⟩ := signedSubject_ok signed
    refine Or.inr ⟨row, (Conversations.directOf_mem isRow).1, ⟨pending, ?_, unblocked⟩, rfl⟩
    exact ⟨sender, subject, actor, method, inside, notInitiator⟩
  · cases decided
    exact Or.inl rfl

theorem decideRow_pair (desired : ConversationState) (row : Conversation) :
    (Conversations.decideRow desired row).pair = row.pair :=
  (Conversations.decideRow_resource desired row).2.1

theorem decideRow_initiator (desired : ConversationState) (row : Conversation) :
    (Conversations.decideRow desired row).initiator = row.initiator := by
  unfold Conversations.decideRow
  split <;> rfl

/-- Where a row of the table comes from after a decision. -/
theorem decided_rows {desired : ConversationState} {pair : String} {row : Conversation}
    (member : row ∈ (store.conversations.modify pair (Conversations.decideRow desired)).rows) :
    ∃ old ∈ store.conversations.rows,
      row = old ∨ row = Conversations.decideRow desired old := by
  rcases Table.mem_modify (decideRow_pair desired) member with ⟨old, _⟩ | ⟨old, found, rfl⟩
  · exact ⟨row, old, Or.inl rfl⟩
  · exact ⟨old, Table.find?_mem found, Or.inr rfl⟩

theorem paired_decide (paired : Paired app store) (desired : ConversationState) (pair : String) :
    Paired app { store with
      conversations := store.conversations.modify pair (Conversations.decideRow desired) } := by
  have same := Conversations.decideRow_resource desired
  refine ⟨?_, ?_, ?_⟩
  · intro row member
    obtain ⟨old, recorded, rfl | rfl⟩ := decided_rows member
    · exact paired.digest row recorded
    · rw [(same old).2.1, (same old).2.2.1, (same old).2.2.2]
      exact paired.digest old recorded
  · intro row member
    obtain ⟨old, recorded, rfl | rfl⟩ := decided_rows member
    · exact paired.ordered row recorded
    · rw [(same old).2.2.1, (same old).2.2.2]
      exact paired.ordered old recorded
  · intro row member
    obtain ⟨old, recorded, rfl | rfl⟩ := decided_rows member
    · exact paired.parties row recorded
    · rw [decideRow_initiator, participates, (same old).2.2.1, (same old).2.2.2]
      exact paired.parties old recorded

/-- One conversation decided, and everything else as it was. -/
theorem decided_consented {act : Act} (sound : Sound app store) {desired : ConversationState}
    {row : Conversation} (recorded : row ∈ store.conversations.rows)
    (outcome : (desired = .active ∧ ∃ request, act = .operation (.dmAccept request) ∧
        Decided store request row) ∨
      desired = .rejected ∧ ∃ request, act = .operation (.dmReject request) ∧
        Decided store request row)
    (pending : row.state = .pending) :
    Sound app { store with
        conversations := store.conversations.modify row.pair (Conversations.decideRow desired) } ∧
      Consented app store act { store with
        conversations := store.conversations.modify row.pair (Conversations.decideRow desired) } := by
  have paired := paired_decide sound.paired desired row.pair
  refine ⟨⟨Conversations.secluded_decide sound.secluded row.pair desired, paired⟩,
    paired_single paired, paired.parties, ?_, ?_, ?_, ?_⟩
  · intro conversation known
    by_cases same : conversation.pair = row.pair
    · have isRow := Table.eq_of_key_eq known recorded same
      subst isRow
      right
      have found : (store.conversations.modify conversation.pair
          (Conversations.decideRow desired)).find? conversation.pair =
            some (Conversations.decideRow desired conversation) := by
        rw [Table.find?_modify_self _ _ _ (decideRow_pair desired),
          (Table.mem_iff_find? _ conversation).mp known]
        rfl
      have decides : Conversations.decideRow desired conversation =
          { conversation with state := desired } := if_pos pending
      have inside := Table.find?_mem found
      rw [decides] at inside
      rcases outcome with ⟨rfl, request, does, decided⟩ | ⟨rfl, request, does, decided⟩
      · exact Or.inl ⟨request, does, decided, inside⟩
      · exact Or.inr ⟨request, does, decided, inside⟩
    · exact Or.inl (Table.mem_modify_of_ne _ known same)
  · intro conversation member absent
    obtain ⟨old, known, rfl | rfl⟩ := decided_rows member
    · rw [Table.mem_iff_find?, absent] at known
      cases known
    · rw [decideRow_pair] at absent
      rw [Table.mem_iff_find?, absent] at known
      cases known
  · intro conversation _ child member below
    exact Or.inl ⟨child, member, rfl, below_congr rfl below⟩
  · intro conversation _ old stored _ child member same
    exact Or.inl (Table.eq_of_key_eq member stored same)

theorem dmAccept_consented (sound : Sound app store) {request : Decision}
    (done : dmAccept app store request = .ok next) :
    Sound app next ∧ Consented app store (.operation (.dmAccept request)) next := by
  rcases dmDecision_ok done with rfl | ⟨row, recorded, decided, rfl⟩
  · exact sound_apart sound (apart_same sound.secluded rfl rfl)
  · exact decided_consented sound recorded (Or.inl ⟨rfl, request, rfl, decided⟩) decided.pending

theorem dmReject_consented (sound : Sound app store) {request : Decision}
    (done : dmReject app store request = .ok next) :
    Sound app next ∧ Consented app store (.operation (.dmReject request)) next := by
  rcases dmDecision_ok done with rfl | ⟨row, recorded, decided, rfl⟩
  · exact sound_apart sound (apart_same sound.secluded rfl rfl)
  · exact decided_consented sound recorded (Or.inr ⟨rfl, request, rfl, decided⟩) decided.pending

theorem dmBlock_ok {context : Context} {blocked : String}
    (done : dmBlock app store context blocked = .ok next) :
    ∃ blocks, next = { store with dmBlocks := blocks } := by
  simp only [dmBlock, Program.except_bind_ok, Program.except_pure, Except.ok.injEq] at done
  obtain ⟨_, _, _, _, _, _, _, _, rfl⟩ := done
  exact ⟨_, rfl⟩

theorem dmBlock_apart (secluded : Secluded app store) {act : Act} {context : Context}
    {blocked : String} (done : dmBlock app store context blocked = .ok next) :
    Apart app store act next := by
  obtain ⟨blocks, rfl⟩ := dmBlock_ok done
  refine apart_same ?_ ?_ ?_
  · exact Conversations.secluded_authority secluded fun store => { store with dmBlocks := blocks }
  · rfl
  · rfl

/-- The step lemma, one case an operation. -/
theorem perform_consented (sound : Sound app store) {operation : Operation}
    (done : perform app store operation = .ok next) :
    Sound app next ∧ Consented app store (.operation operation) next := by
  cases operation with
  | dmRequest request introduction other => exact dmRequest_consented sound done
  | dmAccept request => exact dmAccept_consented sound done
  | dmReject request => exact dmReject_consented sound done
  | dmSend caller conversationId new other =>
      exact sound_apart sound (dmSend_apart sound.secluded done)
  | dmBlock context blocked => exact sound_apart sound (dmBlock_apart sound.secluded done)
  | postEdit caller id revision other =>
      exact sound_apart sound (postEdit_apart sound.secluded done)
  | create caller operation parentId new other =>
      exact sound_apart sound (create_apart sound.secluded done)
  | change caller operation id wanted other =>
      exact sound_apart sound (change_apart sound.secluded done)
  | lifecycle caller operation id state other =>
      exact sound_apart sound (lifecycle_apart sound.secluded done)
  | attach caller operation id new revision other =>
      exact sound_apart sound (attach_apart sound.secluded done)
  | textPatchBatch caller operation items other =>
      exact sound_apart sound (textPatchBatch_apart sound.secluded done)
  | move request => exact sound_apart sound (move_apart sound.secluded done)
  | authority change =>
      cases done
      refine sound_apart sound (apart_same ?_ rfl rfl)
      exact Conversations.secluded_authority sound.secluded fun store =>
        { change store with dmBlocks := store.dmBlocks }

end Talks

theorem step_consented (act : Act) (server : Server) (sound : Sound app server.store) :
    Sound app (step app act server).store ∧
      Consented app server.store act (step app act server).store := by
  have idle : Sound app server.store ∧ Consented app server.store act server.store :=
    sound_apart sound (apart_same sound.secluded rfl rfl)
  cases act with
  | operation next =>
      cases done : perform app server.store next with
      | error failure => simpa [step, done] using idle
      | ok store => simpa [step, done] using perform_consented sound done
  | dmArchive context conversationId =>
      cases done : dmArchive app server context conversationId with
      | error failure => simpa [step, done] using idle
      | ok filed =>
          have same : filed.store = server.store := by
            simp only [dmArchive, Program.except_bind_ok, Program.except_pure,
              Except.ok.injEq] at done
            obtain ⟨_, _, _, _, _, _, _, _, rfl⟩ := done
            rfl
          simpa [step, done, same] using idle

/-- A freshly bootstrapped server: a namespace root and no conversation yet. -/
def started (store : Store) : Server := { store := store, archives := [] }

theorem founded_sound {store : Store} (founded : Conversations.Founded app store) :
    Sound app store where
  secluded := Conversations.founded_secluded founded
  paired := ⟨by simp [founded.quiet], by simp [founded.quiet], by simp [founded.quiet]⟩

/-- Every step of every run keeps to the consent of the two sides. -/
theorem direct_consent (start : Store) (founded : Conversations.Founded app start)
    (acts : List Act) (act : Act) :
    Consented app (Run.run (step app) acts (started start)).store act
      (step app act (Run.run (step app) acts (started start))).store := by
  have kept : ∀ act (server : Server), Sound app server.store →
      Sound app (step app act server).store :=
    fun act server sound => (step_consented act server sound).1
  have sound := Run.run_invariant (step app) kept acts (started start) (founded_sound founded)
  exact (step_consented act _ sound).2

/-! Two users, from the request to the first message. -/

def sampleIntroduction : NewResource :=
  ⟨"p_hello", "post", "hello.md", "g_public", 0, some "v_hello"⟩

def sampleActs : List Act :=
  [.operation (.dmRequest
    { context := Conversations.sampleContext "u_ann" "communication.dm_request@2"
      operation := "communication.dm_request@2"
      recipient := "u_bob"
      topic := Conversations.sampleResource "t_dm" "topic" "dm-1" none "u_ann"
      created := .ok () } (some sampleIntroduction) (.ok ())),
   .operation (.dmAccept
    ⟨Conversations.sampleContext "u_bob" "communication.dm_accept@1", "t_dm"⟩)]

def sampleSend : Act :=
  .operation (.dmSend (callerOf (Conversations.sampleContext "u_bob" dmSendOperation)) "t_dm"
    ⟨"p_answer", "post", "answer.md", "g_public", 0o600, some "v_answer"⟩ (.ok ()))

theorem direct_consent_sample :
    (step sampleApp sampleSend (Run.run (step sampleApp) sampleActs
      (started Conversations.sampleTree))).store.resources.rows.map Resource.id =
        ["r_root", "u_ann", "u_bob", "u_eve", "t_dm", "p_hello", "p_answer"] ∧
      Consented sampleApp
        (Run.run (step sampleApp) sampleActs (started Conversations.sampleTree)).store sampleSend
        (step sampleApp sampleSend (Run.run (step sampleApp) sampleActs
          (started Conversations.sampleTree))).store :=
  ⟨by decide +kernel, direct_consent Conversations.sampleTree Conversations.sample_founded
    sampleActs sampleSend⟩

end MsgServer.Consent
