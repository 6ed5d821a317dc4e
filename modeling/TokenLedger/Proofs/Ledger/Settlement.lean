import TokenLedger.Proofs.Ledger.Moments

/-! # Answers of one moment and of two

An operation that moves tokens loads its two records at two moments.  When is its
answer one that it could have had at a single moment?  If something is committed it
always is, since a commit looks at both records once more.  An answer that does
without a commit rests on the two loads: an error is right for the moment of the
one or of the other, unless a burn or a transfer overflows, and an answer that
nothing was to be done is right for just the moments at which both records are
there as it shows them.  `Judgement.justified_iff` puts this together for any span.
-/

namespace TokenLedger

/-! ## Judgements that settle -/

namespace Judgement

variable {α β : Type}

theorem answer_eq_ok_iff {j : Judgement α} {first second : MemoryStore} {a : α} :
    j.answer first second = .ok a ↔ ∃ batch?, j.judge first second = .ok (a, batch?) := by
  rw [answer, map_eq_ok_iff]
  constructor
  · rintro ⟨⟨_, batch?⟩, judged, rfl⟩
    exact ⟨batch?, judged⟩
  · rintro ⟨batch?, judged⟩
    exact ⟨_, judged, rfl⟩

theorem answer_eq_error_iff {j : Judgement α} {first second : MemoryStore} {e : Failure} :
    j.answer first second = .error e ↔ j.judge first second = .error e := by
  rw [answer, map_eq_error_iff]

theorem answer_map (j : Judgement α) (f : α → β) (first second : MemoryStore) :
    (j.map f).answer first second = (j.answer first second).map f := by
  simp only [answer, map]
  cases j.judge first second <;> rfl

theorem answer_unlessZero {j : Judgement α} {ledger : Ledger} {amount : UInt64}
    (allowed : ¬(amount = 0 ∧ ledger.config.rejectZeroAmounts)) (first second : MemoryStore) :
    (j.unlessZero ledger amount).answer first second = j.answer first second := by
  rw [answer, judge_unlessZero allowed, answer]

/-- What is known of a judgement when tokens alone move.  `tears` is for those that can
    overflow only because their two records do not belong together. -/
structure Settles (j : Judgement α) (stored : α → MemoryStore → Prop) (tears : Prop) : Prop where
  /-- A refusal is right for the moment of the one or of the other load. -/
  refused : ∀ {first second e}, first.Kin second → first.Balanced → second.Balanced →
    j.judge first second = .error e → ¬(e = .rejected .overflow ∧ tears) →
      j.answer first first = .error e ∨ j.answer second second = .error e
  overflow : ∀ {records}, tears → records.Balanced →
    j.answer records records ≠ .error (.rejected .overflow)
  /-- That nothing is to be done is right for all moments at which both records are there. -/
  still : ∀ {first second records a}, j.judge first second = .ok (a, none) →
    (j.answer records records = .ok a ↔ stored a records)

variable {j : Judgement α} {stored : α → MemoryStore → Prop} {tears : Prop}

theorem Settles.unlessZero (settles : j.Settles stored tears) (ledger : Ledger) (amount : UInt64) :
    (j.unlessZero ledger amount).Settles stored tears := by
  by_cases refused : amount = 0 ∧ ledger.config.rejectZeroAmounts
  · have judge : ∀ first second, (j.unlessZero ledger amount).judge first second =
        .error (.rejected .zeroAmount) := fun _ _ => if_pos refused
    refine ⟨fun _ _ _ judged _ => .inl ?_, fun _ _ answered => ?_, fun judged => ?_⟩
    · rw [answer_eq_error_iff, ← judged, judge, judge]
    · cases (judge _ _).symm.trans (answer_eq_error_iff.mp answered)
    · cases (judge _ _).symm.trans judged
  · have judge : (j.unlessZero ledger amount).judge = j.judge := judge_unlessZero refused
    have answer : (j.unlessZero ledger amount).answer = j.answer := by
      funext first second
      exact answer_unlessZero refused first second
    refine ⟨?_, ?_, ?_⟩
    · rw [judge, answer]
      exact settles.refused
    · rw [answer]
      exact settles.overflow
    · rw [judge, answer]
      exact settles.still

theorem Settles.map {stored' : β → MemoryStore → Prop} (settles : j.Settles stored tears)
    {f : α → β} (injective : Function.Injective f)
    (same : ∀ a records, stored a records ↔ stored' (f a) records) :
    (j.map f).Settles stored' tears := by
  refine ⟨fun kin balanced balanced' judged other => ?_, fun tears balanced answered => ?_,
    fun judged => ?_⟩
  · have judged := settles.refused kin balanced balanced' (map_eq_error_iff.mp judged) other
    simpa only [answer_map, map_eq_error_iff] using judged
  · rw [answer_map, map_eq_error_iff] at answered
    exact settles.overflow tears balanced answered
  · obtain ⟨⟨a, _⟩, judged, made⟩ := map_eq_ok_iff.mp judged
    cases made
    rw [answer_map, map_eq_ok_iff]
    show _ ↔ stored' (f a) _
    rw [← same, ← settles.still judged]
    constructor
    · rintro ⟨a', answered, made⟩
      rwa [← injective made]
    · exact fun answered => ⟨a, answered, rfl⟩

end Judgement

/-! ## Issuing and burning -/

section Supply

variable {mint : MintAddress} {account : AccountAddress} {amount : UInt64}
  {apply : MintRecord → AccountRecord → Except Rejection SupplyChange}

theorem judgeSupply_eq_error_iff {first second : MemoryStore} {e : Failure} :
    judgeSupply mint account amount apply first second = .error e ↔
      first.mintAt mint = .error e ∨ ∃ mintRecord, first.getMint mint = some mintRecord ∧
        (second.accountAt account = .error e ∨
          ∃ accountRecord, second.getAccount account = some accountRecord ∧
            ∃ reason, apply mintRecord accountRecord = .error reason ∧ .rejected reason = e) := by
  simp only [judgeSupply, bind_eq_error_iff, MemoryStore.mintAt_eq_ok_iff,
    MemoryStore.accountAt_eq_ok_iff, mapError_eq_error_iff, pure, Except.pure, reduceCtorEq,
    and_false, exists_false, or_false]

/-- What the judgement of an issue or a burn needs to know of its rule. -/
structure SettlesSupply (amount : UInt64)
    (apply : MintRecord → AccountRecord → Except Rejection SupplyChange) (tears : Prop) : Prop where
  refused : ∀ {mint mint' account account' reason}, mint.SameIdentity mint' →
    account.SameIdentity account' → mint'.Covers account' →
    apply mint account' = .error reason → ¬(reason = .overflow ∧ tears) →
      apply mint account = .error reason ∨ apply mint' account' = .error reason
  overflow : ∀ {mint account}, tears → mint.Covers account → apply mint account ≠ .error .overflow
  idle : ∀ {mint account change}, amount = 0 → apply mint account = .ok change →
    change = ⟨mint, account⟩

theorem SettlesSupply.issue {tears : Prop} (whole : ¬tears) (signer : Principal) (amount : UInt64) :
    SettlesSupply amount (Transition.issue · · signer amount) tears where
  refused same same' covers refused _ := Transition.issue_refused same same' covers refused
  overflow torn := absurd torn whole
  idle := Transition.issue_idle

theorem SettlesSupply.burn {tears : Prop} (torn : tears) (signer : Principal) (amount : UInt64) :
    SettlesSupply amount (Transition.burn · · signer amount) tears where
  refused same _ _ refused other :=
    .inr (Transition.burn_refused same (fun overflow => other ⟨overflow, torn⟩) refused)
  overflow _ := Transition.burn_ne_overflow
  idle := Transition.burn_idle

theorem SettlesSupply.settles {tears : Prop} (settles : SettlesSupply amount apply tears)
    (keeps : KeepsIdentity apply) :
    (Judgement.supply mint account amount apply keeps).Settles SupplyChange.StoredIn tears where
  refused := by
    intro first second e kin balanced balanced' judged other
    simp only [Judgement.answer_eq_error_iff]
    rcases judgeSupply_eq_error_iff.mp judged with missing |
      ⟨mintRecord, stored, missing | ⟨accountRecord, stored', reason, refused, rfl⟩⟩
    · exact .inl (judgeSupply_eq_error_iff.mpr (.inl missing))
    · obtain ⟨mintRecord', stored', _⟩ := kin.mint stored
      exact .inr (judgeSupply_eq_error_iff.mpr (.inr ⟨mintRecord', stored', .inl missing⟩))
    -- both records were there at both moments, so the rule can be applied at either
    · obtain ⟨mintRecord', later, same⟩ := kin.mint stored
      obtain ⟨accountRecord', earlier, same'⟩ := kin.symm.account stored'
      have covers := balanced'.covers stored' later
      rcases settles.refused same same'.symm covers refused
        (fun overflow => other ⟨congrArg _ overflow.1, overflow.2⟩) with refused | refused
      · exact .inl (judgeSupply_eq_error_iff.mpr
          (.inr ⟨_, stored, .inr ⟨_, earlier, reason, refused, rfl⟩⟩))
      · exact .inr (judgeSupply_eq_error_iff.mpr
          (.inr ⟨_, later, .inr ⟨_, stored', reason, refused, rfl⟩⟩))
  overflow := by
    intro records tears balanced answered
    rcases judgeSupply_eq_error_iff.mp (Judgement.answer_eq_error_iff.mp answered) with missing |
      ⟨mintRecord, stored, missing | ⟨accountRecord, stored', reason, refused, overflow⟩⟩
    · exact MemoryStore.mintAt_ne_rejected missing
    · exact MemoryStore.accountAt_ne_rejected missing
    · cases overflow
      exact settles.overflow tears (balanced.covers stored' stored) refused
  still := by
    intro first second records change judged
    obtain ⟨mintRecord, accountRecord, stored, stored', passed, asked⟩ :=
      judgeSupply_eq_ok_iff.mp judged
    -- nothing is asked to be committed only if nothing moves
    have zero : amount = 0 := by
      by_contra nonzero
      rw [if_neg nonzero] at asked
      cases asked
    obtain rfl := settles.idle zero passed
    rw [SupplyChange.storedIn_loaded (MemoryStore.address_of_getMint stored)
      (MemoryStore.address_of_getAccount stored'), Judgement.answer_eq_ok_iff]
    constructor
    · rintro ⟨batch?, judged⟩
      obtain ⟨_, _, present, present', passed, _⟩ := judgeSupply_eq_ok_iff.mp judged
      cases settles.idle zero passed
      exact ⟨present, present'⟩
    · rintro ⟨present, present'⟩
      exact ⟨none, judgeSupply_eq_ok_iff.mpr ⟨_, _, present, present', passed, asked⟩⟩

end Supply

/-! ## Transferring -/

section Transfer

variable {sender recipient : AccountAddress} {signer : Principal} {amount : UInt64}

theorem judgeTransfer_eq_error_iff {first second : MemoryStore} {e : Failure} :
    judgeTransfer sender recipient signer amount first second = .error e ↔
      first.accountAt sender = .error e ∨
        ∃ senderRecord, first.getAccount sender = some senderRecord ∧
          (second.accountAt recipient = .error e ∨
            ∃ recipientRecord, second.getAccount recipient = some recipientRecord ∧
              ∃ reason, Transition.transfer senderRecord recipientRecord signer amount =
                .error reason ∧ .rejected reason = e) := by
  simp only [judgeTransfer, bind_eq_error_iff, MemoryStore.accountAt_eq_ok_iff,
    mapError_eq_error_iff, pure, Except.pure, reduceCtorEq, and_false, exists_false, or_false]

theorem settles_transfer {tears : Prop} (torn : tears) (sender recipient : AccountAddress)
    (signer : Principal) (amount : UInt64) :
    (Judgement.transfer sender recipient signer amount).Settles TransferChange.StoredIn tears where
  refused := by
    intro first second e kin balanced balanced' judged other
    simp only [Judgement.answer_eq_error_iff]
    rcases judgeTransfer_eq_error_iff.mp judged with missing |
      ⟨senderRecord, stored, missing | ⟨recipientRecord, stored', reason, refused, rfl⟩⟩
    · exact .inl (judgeTransfer_eq_error_iff.mpr (.inl missing))
    · obtain ⟨senderRecord', stored', _⟩ := kin.account stored
      exact .inr (judgeTransfer_eq_error_iff.mpr (.inr ⟨senderRecord', stored', .inl missing⟩))
    -- a refusal that is no overflow goes by the sender, and by the recipient's mint
    · obtain ⟨recipientRecord', earlier, same⟩ := kin.symm.account stored'
      have refused := Transition.transfer_refused same
        (fun overflow => other ⟨congrArg _ overflow, torn⟩) refused
      exact .inl (judgeTransfer_eq_error_iff.mpr
        (.inr ⟨_, stored, .inr ⟨_, earlier, reason, refused, rfl⟩⟩))
  overflow := by
    intro records _ balanced answered
    rcases judgeTransfer_eq_error_iff.mp (Judgement.answer_eq_error_iff.mp answered) with missing |
      ⟨senderRecord, stored, missing | ⟨recipientRecord, stored', reason, refused, overflow⟩⟩
    · exact MemoryStore.accountAt_ne_rejected missing
    · exact MemoryStore.accountAt_ne_rejected missing
    · cases overflow
      obtain rfl := MemoryStore.address_of_getAccount stored
      obtain rfl := MemoryStore.address_of_getAccount stored'
      exact Transition.transfer_ne_overflow (balanced.add_amounts_lt stored stored') refused
  still := by
    intro first second records change judged
    obtain ⟨senderRecord, recipientRecord, stored, stored', passed, asked⟩ :=
      judgeTransfer_eq_ok_iff.mp judged
    have idle : amount = 0 ∨ sender = recipient := by
      by_contra moves
      rw [if_neg moves] at asked
      cases asked
    have unmoved : ∀ {earlier later : MemoryStore} {senderRecord recipientRecord change},
        earlier.getAccount sender = some senderRecord →
        later.getAccount recipient = some recipientRecord →
        Transition.transfer senderRecord recipientRecord signer amount = .ok change →
          change = ⟨senderRecord, recipientRecord⟩ := by
      intro earlier later senderRecord recipientRecord change stored stored' passed
      refine Transition.transfer_idle (idle.imp_right fun self => ?_) passed
      rw [MemoryStore.address_of_getAccount stored, MemoryStore.address_of_getAccount stored', self]
    obtain rfl := unmoved stored stored' passed
    rw [TransferChange.storedIn_loaded (MemoryStore.address_of_getAccount stored)
      (MemoryStore.address_of_getAccount stored'), Judgement.answer_eq_ok_iff]
    constructor
    · rintro ⟨batch?, judged⟩
      obtain ⟨_, _, present, present', passed, _⟩ := judgeTransfer_eq_ok_iff.mp judged
      cases unmoved present present' passed
      exact ⟨present, present'⟩
    · rintro ⟨present, present'⟩
      exact ⟨none, judgeTransfer_eq_ok_iff.mpr ⟨_, _, present, present', passed, asked⟩⟩

end Transfer

/-! ## Operations -/

namespace Ledger

variable {ledger : Ledger} {signer : Principal} {operation : Operation}

theorem exists_judgement (ledger : Ledger) (signer : Principal) (moves : operation.moves = true) :
    ∃ j, ledger.judgement? signer operation = some j := by
  cases operation with
  | createMint mint decimals => cases moves
  | createAccount mint owner => cases moves
  | issue mint account amount => exact ⟨_, rfl⟩
  | transfer sender recipient amount => exact ⟨_, rfl⟩
  | burn mint account amount => exact ⟨_, rfl⟩

theorem settles {j : Judgement Outcome} (judged : ledger.judgement? signer operation = some j) :
    j.Settles (fun outcome records => outcome.StoredIn records) (operation.kind ≠ .issue) := by
  cases operation with
  | createMint mint decimals => cases judged
  | createAccount mint owner => cases judged
  | issue mint account amount =>
    cases judged
    have whole : ¬OperationKind.issue ≠ .issue := by decide
    have rule := SettlesSupply.issue whole signer amount
    exact ((rule.settles Transition.issue_keeps).unlessZero ledger amount).map
      (fun _ _ same => Outcome.issued.inj same) fun _ _ => Iff.rfl
  | transfer sender recipient amount =>
    cases judged
    have torn : OperationKind.transfer ≠ .issue := by decide
    exact ((settles_transfer torn sender recipient signer amount).unlessZero ledger amount).map
      (fun _ _ same => Outcome.transferred.inj same) fun _ _ => Iff.rfl
  | burn mint account amount =>
    cases judged
    have torn : OperationKind.burn ≠ .issue := by decide
    have rule := SettlesSupply.burn torn signer amount
    exact ((rule.settles Transition.burn_keeps).unlessZero ledger amount).map
      (fun _ _ same => Outcome.burned.inj same) fun _ _ => Iff.rfl

/-- An operation that moves tokens and is done alone answers by the records that it finds. -/
theorem perform_alone {j : Judgement Outcome}
    (judged : ledger.judgement? signer operation = some j) {store : AnyStore}
    {records : MemoryStore} (holds : store.Holds records) :
    ((ledger.perform signer operation).run.run store).result = j.answer records records := by
  have permits : LedgerProgram.Permits (.once (fun _ _ => False) fun _ _ => True) j :=
    fun quiet _ _ => .inr ⟨rfl, quiet, trivial⟩
  have ensures := @ensures_perform_movement _ (.start records) ledger _ _ _ judged permits rfl
  obtain ⟨final, _, answers, seen⟩ := ensures.run_once holds
  generalize (Program.run _ store).result = result at answers
  -- alone, all moments before a write are one
  cases answers with
  | still quiet first second judged =>
    obtain ⟨_, still⟩ | ⟨posted, _⟩ := seen
    · rw [still _ first, still _ second] at judged
      exact (Judgement.answer_eq_ok_iff.mpr ⟨_, judged⟩).symm
    · rw [quiet] at posted
      cases posted
  | refused quiet first second judged =>
    obtain ⟨_, still⟩ | ⟨posted, _⟩ := seen
    · rw [still _ first, still _ second] at judged
      exact (Judgement.answer_eq_error_iff.mpr judged).symm
    · rw [quiet] at posted
      cases posted
  | posted posted present judged committed =>
    obtain ⟨quiet, _⟩ | ⟨posted', _⟩ := seen
    · rw [quiet] at posted
      cases posted
    · rw [posted'] at posted
      cases posted
      exact (Judgement.answer_eq_ok_iff.mpr ⟨_, judged⟩).symm
  | contended quiet first second moved =>
    obtain ⟨_, still⟩ | ⟨posted, _⟩ := seen
    · exact absurd ((still _ first).trans (still _ second).symm) moved
    · rw [quiet] at posted
      cases posted

end Ledger

/-! ## Answers of a single moment -/

/-- What is known of all moments of a span while tokens alone move. -/
structure Span.Steady (span : Span) : Prop where
  balanced : ∀ records ∈ span.moments, records.Balanced
  kin : ∀ a ∈ span.moments, ∀ b ∈ span.moments, a.Kin b

/-- An answer is that of a single moment unless an operation overflows that could do so
    at no moment, or answers without a commit what was at no moment there. -/
theorem Judgement.justified_iff {α : Type} {j : Judgement α} {stored : α → MemoryStore → Prop}
    {tears : Prop} (settles : j.Settles stored tears) {span : Span} (steady : span.Steady)
    {result : Except Failure α} (answers : j.Answers span result)
    (replied : ∀ reason, result ≠ .error (.storage reason)) :
    (∃ records ∈ span.moments, j.answer records records = result) ↔
      ¬((result = .error (.rejected .overflow) ∧ tears) ∨
        ∃ a, result = .ok a ∧ span.posted = [] ∧ ∀ records ∈ span.moments, ¬stored a records) := by
  cases answers with
  | still quiet seen seen' judged =>
    constructor
    · rintro ⟨records, present, answered⟩ (⟨impossible, _⟩ | ⟨a, same, _, absent⟩)
      · cases impossible
      · cases same
        exact absent records present ((settles.still judged).mp answered)
    · intro whole
      by_contra unjustified
      refine whole (.inr ⟨_, rfl, quiet, fun records present shown => ?_⟩)
      exact unjustified ⟨records, present, (settles.still judged).mpr shown⟩
  | refused quiet seen seen' judged =>
    constructor
    · rintro ⟨records, present, answered⟩ (⟨same, tears⟩ | ⟨a, impossible, _⟩)
      · cases same
        exact settles.overflow tears (steady.balanced records present) answered
      · cases impossible
    · intro whole
      rcases settles.refused (steady.kin _ seen _ seen') (steady.balanced _ seen)
        (steady.balanced _ seen') judged
        (fun torn => whole (.inl ⟨congrArg _ torn.1, torn.2⟩)) with answered | answered
      · exact ⟨_, seen, answered⟩
      · exact ⟨_, seen', answered⟩
  | posted posted seen judged committed =>
    constructor
    · rintro _ (⟨impossible, _⟩ | ⟨a, _, quiet, _⟩)
      · cases impossible
      · rw [posted] at quiet
        cases quiet
    · exact fun _ => ⟨_, seen, Judgement.answer_eq_ok_iff.mpr ⟨_, judged⟩⟩
  | contended quiet seen seen' moved => exact absurd rfl (replied _)

end TokenLedger
