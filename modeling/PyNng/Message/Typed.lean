import PyNng.Common.Bytes
import PyNng.Common.Codec
import PyNng.Common.Simulation
import PyNng.Message.Pinned
/-!
# Message — the typed methods

`append_uN`, `chop_uN` and `trim_uN` of `_message.pxi`: an unsigned integer
in network byte order is put at the end of the body, or cut off its end or
its front and returned. The argument of `append_uN` is converted to the C
type before the method runs, so what does not fit never comes to the lock.

A field is what the C variable `v` can hold. A message that is written in
fields is a deque of them, for as long as whoever takes one asks for the width
of the one that is at that end; nothing else that threads do to the message
meanwhile stands in between. Of nng it is assumed that its functions do what
is documented of them (`Nng.Documented`).
-/

namespace PyNng

namespace Message

/-! ## The code -/

/-- **The unsigned integers in network byte order.** -/
def uints : Codec UintWidth ℕ UInt8 where
  width := UintWidth.bytes
  Fits := fun w v => v < 2 ^ (8 * w.bytes)
  encode := fun w v => netBytes v w.bytes
  decode := fun _ bs => beNat bs
  length_encode := fun w v => length_netBytes v w.bytes
  fits_decode := fun w bs h => by rw [← pow_bytes, ← h]; exact beNat_lt bs
  decode_encode := fun w v h => by
    rw [← pow_bytes] at h
    rw [beNat_netBytes, Nat.mod_eq_of_lt h]
  encode_decode := fun w bs h => by rw [← h, netBytes_beNat]

/-- A `uint16_t`, `uint32_t` or `uint64_t`. -/
abbrev Field : Type := uints.Field

/-- The conversion of a Python int; `none` is the `OverflowError`. -/
def UintWidth.ofInt (w : UintWidth) (x : ℤ) : Option Field :=
  if h : 0 ≤ x ∧ x.toNat < 2 ^ (8 * w.bytes) then some ⟨w, x.toNat, h.2⟩ else none

/-- What a variable of the type holds once a number is stored to it. -/
def UintWidth.hold (w : UintWidth) (v : ℕ) : Field :=
  ⟨w, v % 2 ^ (8 * w.bytes), Nat.mod_lt _ (Nat.pow_pos (by omega))⟩

theorem hold_symbols (f : Field) : f.kind.hold (beNat f.symbols) = f :=
  Codec.Field.ext rfl ((congrArg (· % _) (Codec.decode_symbols f)).trans (Nat.mod_eq_of_lt f.fits))

/-- The first field of a body is read off its front, -/
theorem hold_front (f : Field) (fs : List Field) :
    f.kind.hold (beNat ((Codec.encodeAll (f :: fs)).take f.kind.bytes)) = f :=
  (congrArg (f.kind.hold ∘ beNat) (Codec.take_encodeAll f fs)).trans (hold_symbols f)

/-- and the last one off its end. -/
theorem hold_end (fs : List Field) (f : Field) :
    f.kind.hold (beNat ((Codec.encodeAll (fs ++ [f])).drop
      ((Codec.encodeAll (fs ++ [f])).length - f.kind.bytes))) = f :=
  (congrArg (f.kind.hold ∘ beNat) (Codec.drop_encodeAll_concat fs f)).trans (hold_symbols f)

variable {σ : Type}

/-- **What is documented of nng.** A function that fails leaves the body as it
was, and numbers are in network byte order. -/
structure Nng.Documented (nng : Nng σ) : Prop where
  failed : ∀ op body x, (nng.call op body x).rv ≠ 0 → (nng.call op body x).body = body
  growFailed : ∀ growth data body x, (nng.grow growth data (some body) x).rv ≠ 0 →
    (nng.grow growth data (some body) x).body = body
  clear : ∀ body x, (nng.call .clear body x).body = []
  reserve : ∀ n body x, (nng.call (.reserve n) body x).body = body
  appendUint : ∀ w v body x, (nng.call (.appendUint w v) body x).rv = 0 →
    (nng.call (.appendUint w v) body x).body = body ++ netBytes v w.bytes
  /-- The end of the body is removed and stored, -/
  chopUint : ∀ w body x, w.bytes ≤ body.length → nng.call (.chopUint w) body x =
    ⟨0, body.take (body.length - w.bytes), beNat (body.drop (body.length - w.bytes))⟩
  chopUint_short : ∀ w body x, body.length < w.bytes → (nng.call (.chopUint w) body x).rv ≠ 0
  /-- or its front. -/
  trimUint : ∀ w body x, w.bytes ≤ body.length → nng.call (.trimUint w) body x =
    ⟨0, body.drop w.bytes, beNat (body.take w.bytes)⟩
  trimUint_short : ∀ w body x, body.length < w.bytes → (nng.call (.trimUint w) body x).rv ≠ 0

/-! ## The methods -/

inductive TypedCall
  | append (w : UintWidth) (x : ℤ)
  | chop (w : UintWidth)
  | trim (w : UintWidth)
  deriving DecidableEq, Repr

/-- How a call ends. -/
inductive Outcome
  | overflowError
  | raised (e : PyError)
  /-- `None`, or the value of a field. -/
  | returned (v : Option Field)
  deriving DecidableEq

/-- The call of nng the method makes, where the argument fits. -/
def TypedCall.op : TypedCall → Option BodyOp
  | .append w x => (w.ofInt x).map fun f => .appendUint f.kind f.value
  | .chop w => some (.chopUint w)
  | .trim w => some (.trimUint w)

/-- What the method returns where nng has left `v` in its variable. -/
def TypedCall.value (v : ℕ) : TypedCall → Option Field
  | .append .. => none
  | .chop w | .trim w => some (w.hold v)

/-- The body the handle refers to. -/
def State.current (s : State) : List UInt8 := s.handle.elim [] s.body

/-- `append_uN`, `chop_uN` or `trim_uN`. -/
def State.typed (nng : Nng σ) (c : TypedCall) (x : σ) (s : State) : Outcome × State :=
  match c.op with
  | none => (.overflowError, s)
  | some op =>
    let called := s.mutate nng op x
    (called.1.elim (.returned (c.value (nng.call op s.current x).v)) .raised, called.2)

/-! ## A body that is written in fields -/

/-- What a call that returned `v` has done. -/
def TypedCall.act (v : Option Field) : TypedCall → Option (DequeAct Field)
  | .append w x => (w.ofInt x).map .pushBack
  | .chop _ => v.map .popBack
  | .trim _ => v.map .popFront

/-- Whoever takes a field asks for its width. -/
def TypedCall.Agrees (fs : List Field) : TypedCall → Prop
  | .append .. => True
  | .chop w => ∀ f ∈ fs.getLast?, f.kind = w
  | .trim w => ∀ f ∈ fs.head?, f.kind = w

instance (fs : List Field) : ∀ c : TypedCall, Decidable (c.Agrees fs)
  | .append .. => inferInstanceAs (Decidable True)
  | .chop _ | .trim _ => inferInstanceAs (Decidable (∀ f ∈ _, _))

variable {nng : Nng σ} {s : State} {m : ℕ} {c : TypedCall} {op : BodyOp} {x : σ}
variable {fs : List Field}

theorem State.current_eq (h : s.handle = some m) : s.current = s.body m := by
  rw [current, h]
  rfl

/-- Of the typed methods `check_err` sees what nng returns, and the body is as nng
leaves it. -/
theorem TypedCall.op_plain (hop : c.op = some op) (old : List UInt8) (r : Reply) :
    op.raises r = r.checkErr ∧ op.leaves old r = r.body := by
  cases c with
  | append w x =>
    obtain ⟨f, -, rfl⟩ := Option.map_eq_some_iff.mp hop
    exact ⟨rfl, rfl⟩
  | _ =>
    obtain rfl := Option.some.inj hop
    exact ⟨rfl, rfl⟩

/-- What comes of a call that passes the check is what nng replies. -/
theorem State.typed_eq (hop : c.op = some op) (hcheck : s.checkFullOwnership = .ok m) :
    s.typed nng c x =
      ((nng.call op (s.body m) x).checkErr.elim
          (.returned (c.value (nng.call op (s.body m) x).v)) .raised,
        (s.hand m).setBody m (nng.call op (s.body m) x).body) := by
  obtain ⟨hraises, hleaves⟩ := TypedCall.op_plain hop (s.body m) (nng.call op (s.body m) x)
  rw [typed, hop]
  dsimp only
  rw [mutate, hcheck]
  dsimp only
  rw [hraises, hleaves, s.current_eq (checkFullOwnership_ok_iff.mp hcheck).2]

/-- The call returns where the check passes and nng does what it is asked. -/
theorem State.typed_returned (hop : c.op = some op) (hcheck : s.checkFullOwnership = .ok m)
    (hrv : (nng.call op (s.body m) x).rv = 0) :
    s.typed nng c x = (.returned (c.value (nng.call op (s.body m) x).v),
      (s.hand m).setBody m (nng.call op (s.body m) x).body) := by
  rw [typed_eq hop hcheck, Reply.checkErr, if_pos hrv]
  rfl

/-- **What a typed method does**: it returns, and nng did what it was asked, or
it raises, and no body is another. -/
theorem State.typed_cases (hn : nng.Documented) (c : TypedCall) (x : σ) (s : State) :
    (∃ op m, c.op = some op ∧ s.checkFullOwnership = .ok m ∧
      (nng.call op (s.body m) x).rv = 0) ∨
    (∀ v, (s.typed nng c x).1 ≠ .returned v) ∧ (s.typed nng c x).2.body = s.body := by
  cases hop : c.op with
  | none =>
    rw [typed, hop]
    exact .inr ⟨fun _ => Outcome.noConfusion, rfl⟩
  | some op =>
    cases hcheck : s.checkFullOwnership with
    | error e =>
      rw [typed, hop]
      dsimp only
      rw [mutate, hcheck]
      exact .inr ⟨fun _ => Outcome.noConfusion, rfl⟩
    | ok m =>
      by_cases hrv : (nng.call op (s.body m) x).rv = 0
      · exact .inl ⟨op, m, rfl, rfl, hrv⟩
      · rw [typed_eq hop hcheck, Reply.checkErr, if_neg hrv, hn.failed _ _ _ hrv]
        exact .inr ⟨fun _ => Outcome.noConfusion, Function.update_eq_self m s.body⟩

theorem UintWidth.bytes_pos (w : UintWidth) : 0 < w.bytes := by
  cases w <;> decide

/-- **One call is one step of the deque**, and the body is the fields again. -/
theorem TypedCall.call_encodeAll (hn : nng.Documented) (hagree : c.Agrees fs)
    (hop : c.op = some op) (hrv : (nng.call op (Codec.encodeAll fs) x).rv = 0) :
    ∃ a, c.act (c.value (nng.call op (Codec.encodeAll fs) x).v) = some a ∧ a.Enabled fs ∧
      (nng.call op (Codec.encodeAll fs) x).body = Codec.encodeAll (a.apply fs) := by
  cases c with
  | append w i =>
    obtain ⟨f, hf, rfl⟩ := Option.map_eq_some_iff.mp hop
    refine ⟨.pushBack f, by rw [act, hf]; rfl, trivial, ?_⟩
    rw [hn.appendUint _ _ _ _ hrv, DequeAct.apply, Codec.encodeAll_append, Codec.encodeAll_cons,
      Codec.encodeAll_nil, List.append_nil]
    rfl
  | chop w =>
    obtain rfl := Option.some.inj hop
    have hle : w.bytes ≤ (Codec.encodeAll fs).length := by
      by_contra hlt
      exact hn.chopUint_short _ _ _ (Nat.not_le.mp hlt) hrv
    rcases List.eq_nil_or_concat' fs with rfl | ⟨fs', f, rfl⟩
    · exact absurd hle (Nat.not_le.mpr w.bytes_pos)
    · obtain rfl : f.kind = w := hagree f List.getLast?_concat
      rw [hn.chopUint _ _ _ hle]
      refine ⟨.popBack f, ?_, List.getLast?_concat, ?_⟩
      · exact congrArg (some ∘ DequeAct.popBack) (hold_end fs' f)
      · rw [DequeAct.apply, List.dropLast_concat]
        exact Codec.take_encodeAll_concat fs' f
  | trim w =>
    obtain rfl := Option.some.inj hop
    have hle : w.bytes ≤ (Codec.encodeAll fs).length := by
      by_contra hlt
      exact hn.trimUint_short _ _ _ (Nat.not_le.mp hlt) hrv
    cases fs with
    | nil => exact absurd hle (Nat.not_le.mpr w.bytes_pos)
    | cons f fs =>
      obtain rfl : f.kind = w := hagree f rfl
      rw [hn.trimUint _ _ _ hle]
      refine ⟨.popFront f, ?_, rfl, Codec.drop_encodeAll f fs⟩
      exact congrArg (some ∘ DequeAct.popFront) (hold_front f fs)

/-! ## The message and its fields -/

/-- The steps. What is written is told apart from whatever else happens. -/
inductive Step (σ : Type)
  /-- Thread `t` calls a typed method. -/
  | typed (t : ℕ) (c : TypedCall) (x : σ)
  | clear (t : ℕ) (x : σ)
  /-- The handle is assigned an `nng_msg` with these fields in its body. -/
  | make (fs : List Field)
  | other (a : Act σ)

/-- The message, and the fields each `nng_msg` is written in. -/
structure Written where
  msg : State
  /-- History: what was put into the body and not taken. -/
  fields : ℕ → List Field

def BodyOp.isReserve : BodyOp → Bool
  | .reserve _ => true
  | _ => false

/-- The steps that write to no body: what the buffer protocol does short of
writing, a send, and whatever raises. -/
def Act.KeepsBodies (nng : Nng σ) (s : State) : Act σ → Prop
  | .acquire _ | .release .. | .steal _ | .enter .. | .convert _ | .leave _ | .restore _ | .sent _
  | .read _ => True
  | .mutate _ op x => op.isReserve = true ∨ op ≠ .clear ∧ (s.mutate nng op x).1 ≠ none
  | .grow t x => (s.grow nng t x).1 ≠ none
  | .init new => new = none
  | .write .. => False

/-- What the step does to the fields, and of which `nng_msg`. -/
def Step.event (nng : Nng σ) (s : State) : Step σ → Option (ℕ × DequeAct Field)
  | .typed _ c x =>
    match (s.typed nng c x).1 with
    | .returned v => s.handle.bind fun m => (c.act v).map (m, ·)
    | _ => none
  | .clear .. => s.checkFullOwnership.toOption.map (·, .refill [])
  | .make fs => some (s.made, .refill fs)
  | .other _ => none

/-- The step on the message itself. -/
def Step.run (nng : Nng σ) (s : State) : Step σ → State
  | .typed _ c x => (s.typed nng c x).2
  | .clear _ x => (s.mutate nng .clear x).2
  | .make fs => s.assign (some (Codec.encodeAll fs))
  | .other a => (Message.run nng s a).2

/-- The guard: whoever takes a field asks for the width it was written in, and
the body is written in no other way. -/
def Step.Enabled (nng : Nng σ) (p : Written) : Step σ → Prop
  | .typed t c _ =>
    (c.op = none ∨ p.msg.CanLock t) ∧
      ∀ m ∈ p.msg.checkFullOwnership.toOption, c.Agrees (p.fields m)
  | .clear t _ => p.msg.CanLock t
  | .make _ => True
  | .other a => Message.Enabled p.msg a ∧ a.KeepsBodies nng p.msg

instance (nng : Nng σ) (s : State) : ∀ a : Act σ, Decidable (a.KeepsBodies nng s)
  | .acquire _ | .release .. | .steal _ | .enter .. | .convert _ | .leave _ | .restore _ | .sent _
  | .read _ => inferInstanceAs (Decidable True)
  | .mutate .. => inferInstanceAs (Decidable (_ ∨ _ ∧ _))
  | .grow .. => inferInstanceAs (Decidable (_ ≠ _))
  | .init _ => inferInstanceAs (Decidable (_ = _))
  | .write .. => inferInstanceAs (Decidable False)

instance (nng : Nng σ) (p : Written) : ∀ k : Step σ, Decidable (k.Enabled nng p)
  | .typed .. => inferInstanceAs (Decidable (_ ∧ ∀ m ∈ _, _))
  | .clear .. => inferInstanceAs (Decidable (State.CanLock _ _))
  | .make _ => inferInstanceAs (Decidable True)
  | .other _ => inferInstanceAs (Decidable (_ ∧ _))

/-- **The machine of one message that is written in fields.** -/
def written (nng : Nng σ) : Machine Written (Step σ) where
  init := ⟨.empty, (deques ℕ Field).init⟩
  Enabled := fun p k => k.Enabled nng p
  next := fun p k => ⟨k.run nng p.msg, (deques ℕ Field).final p.fields (k.event nng p.msg).toList⟩

instance (nng : Nng σ) (p : Written) (k : Step σ) : Decidable ((written nng).Enabled p k) :=
  inferInstanceAs (Decidable (k.Enabled nng p))

/-! ## Every body is its fields -/

variable {t : ℕ} {a : Act σ} {p : Written} {k : Step σ}

@[simp] theorem body_dropView (s : State) (mv : ArgView) : (s.dropView t mv).body = s.body := by
  cases mv <;> rfl

theorem Reply.rv_ne_of_raised {r : Reply} (h : r.checkErr ≠ none) : r.rv ≠ 0 :=
  fun hrv => h (if_pos hrv)

/-- A method that calls `reserve`, or raises, leaves the body. -/
theorem BodyOp.leaves_eq (hn : nng.Documented) {body : List UInt8}
    (h : op.isReserve = true ∨ op ≠ .clear ∧ op.raises (nng.call op body x) ≠ none) :
    op.leaves body (nng.call op body x) = body := by
  rcases h with hres | ⟨hclear, hraises⟩
  · cases op with
    | reserve n => exact hn.reserve n body x
    | _ => cases hres
  · have hrv : (nng.call op body x).rv ≠ 0 := by
      cases op with
      | clear => exact absurd rfl hclear
      | _ => exact Reply.rv_ne_of_raised hraises
    cases op with
    | resize newSize =>
      rw [leaves, if_neg fun hok => hrv hok.1]
      exact hn.failed _ _ _ hrv
    | _ => exact hn.failed _ _ _ hrv

/-- **The other steps write to no body.** -/
theorem body_run (hn : nng.Documented) (h : a.KeepsBodies nng s) :
    (Message.run nng s a).2.body = s.body := by
  cases a with
  | acquire t =>
    dsimp only [Message.run]
    unfold State.getBuffer
    cases s.checkValidity <;> rfl
  | mutate t op x =>
    unfold Act.KeepsBodies at h
    dsimp only [Message.run]
    unfold State.mutate at h ⊢
    cases hcheck : s.checkFullOwnership with
    | error e => rfl
    | ok m =>
      rw [hcheck] at h
      dsimp only at h ⊢
      rw [BodyOp.leaves_eq hn h]
      exact Function.update_eq_self m s.body
  | steal t =>
    dsimp only [Message.run]
    unfold State.stealPtr
    cases s.checkFullOwnership <;> rfl
  | enter t growth arg =>
    dsimp only [Message.run]
    unfold State.enter
    cases s.checkFullOwnership <;> rfl
  | convert t =>
    dsimp only [Message.run]
    unfold State.convert
    cases s.frames with
    | nil => rfl
    | cons f fs =>
      dsimp only
      cases f.arg with
      | other data => rfl
      | self =>
        dsimp only
        cases s.checkValidity <;> rfl
  | grow t x =>
    unfold Act.KeepsBodies at h
    dsimp only [Message.run]
    unfold State.grow at h ⊢
    cases hframes : s.frames with
    | nil => rfl
    | cons f fs =>
      rw [hframes] at h
      dsimp only at h ⊢
      cases hhandle : s.handle with
      | none => exact body_dropView s f.mv
      | some m =>
        rw [hhandle] at h
        dsimp only [Option.map_some] at h ⊢
        rw [hn.growFailed _ _ _ _ (Reply.rv_ne_of_raised h)]
        exact (body_dropView _ f.mv).trans (Function.update_eq_self m s.body)
  | leave t =>
    dsimp only [Message.run]
    unfold State.leave
    cases s.frames with
    | nil => rfl
    | cons f fs => exact body_dropView s f.mv
  | init new =>
    obtain rfl : new = none := h
    dsimp only [Message.run]
    unfold State.assign
    cases s.handle <;> rfl
  | read t =>
    dsimp only [Message.run]
    cases s.checkValidity <;> rfl
  | write y data => exact absurd h id
  | release | restore | sent => rfl

/-- The bodies are the fields, one after another. -/
def Written.Encoded (p : Written) : Prop := ∀ m, p.msg.body m = Codec.encodeAll (p.fields m)

/-- A step that does nothing to the fields, and writes to no body. -/
theorem Written.Encoded.of_none (h : p.Encoded) (hevent : k.event nng p.msg = none)
    (hbody : (k.run nng p.msg).body = p.msg.body) :
    ((written nng).next p k).Encoded ∧
      ∀ b, k.event nng p.msg = some b → (deques ℕ Field).Enabled p.fields b := by
  refine ⟨fun j => ?_, fun b hb => ?_⟩
  · show (k.run nng p.msg).body j =
      Codec.encodeAll ((deques ℕ Field).final p.fields (k.event nng p.msg).toList j)
    rw [hbody, hevent]
    exact h j
  · rw [hevent] at hb
    cases hb

/-- A step that changes one body, and its fields with it. -/
theorem Written.Encoded.of_some (h : p.Encoded) {b : DequeAct Field} {l : List UInt8}
    (hevent : k.event nng p.msg = some (m, b)) (hen : b.Enabled (p.fields m))
    (hrun : (k.run nng p.msg).body = Function.update p.msg.body m l)
    (hbody : l = Codec.encodeAll (b.apply (p.fields m))) :
    ((written nng).next p k).Encoded ∧
      ∀ b, k.event nng p.msg = some b → (deques ℕ Field).Enabled p.fields b := by
  refine ⟨fun j => ?_, fun b' hb' => ?_⟩
  · show (k.run nng p.msg).body j =
      Codec.encodeAll ((deques ℕ Field).final p.fields (k.event nng p.msg).toList j)
    rw [hrun, hevent]
    show Function.update p.msg.body m l j =
      Codec.encodeAll (Function.update p.fields m (b.apply (p.fields m)) j)
    by_cases hj : j = m
    · subst hj
      rw [Function.update_self, Function.update_self, hbody]
    · rw [Function.update_of_ne hj, Function.update_of_ne hj, h j]
  · rw [hevent] at hb'
    rw [← Option.some.inj hb']
    exact hen

/-- **One step.** What is taken was at that end, and the bodies are the fields
again. -/
theorem Written.Encoded.step (hn : nng.Documented) (h : p.Encoded) (hen : k.Enabled nng p) :
    ((written nng).next p k).Encoded ∧
      ∀ b, k.event nng p.msg = some b → (deques ℕ Field).Enabled p.fields b := by
  cases k with
  | typed t c x =>
    rcases p.msg.typed_cases hn c x with ⟨op, m, hop, hcheck, hrv⟩ | ⟨hno, hb⟩
    · have hagree : c.Agrees (p.fields m) := hen.2 m (by rw [hcheck]; rfl)
      have htyped := State.typed_returned hop hcheck hrv
      rw [h m] at hrv
      obtain ⟨b, hact, hb, hbody⟩ := TypedCall.call_encodeAll hn hagree hop hrv
      rw [← h m] at hact hbody
      refine h.of_some ?_ hb (congrArg (State.body ∘ Prod.snd) htyped) hbody
      rw [Step.event, htyped]
      dsimp only
      rw [(checkFullOwnership_ok_iff.mp hcheck).2, Option.bind_some, hact]
      rfl
    · refine h.of_none ?_ hb
      rw [Step.event]
      cases hout : (p.msg.typed nng c x).1 with
      | returned v => exact absurd hout (hno v)
      | _ => rfl
  | clear t x =>
    cases hcheck : p.msg.checkFullOwnership with
    | error e =>
      refine h.of_none ?_ ?_
      · rw [Step.event, hcheck]
        rfl
      · rw [Step.run, State.mutate, hcheck]
    | ok m =>
      refine h.of_some (m := m) (b := .refill []) ?_ trivial ?_ (hn.clear (p.msg.body m) x)
      · rw [Step.event, hcheck]
        rfl
      · rw [Step.run, State.mutate, hcheck]
        rfl
  | make fs =>
    refine h.of_some (m := p.msg.made) (b := .refill fs) rfl trivial ?_ rfl
    rw [Step.run]
    unfold State.assign
    cases p.msg.handle <;> rfl
  | other a => exact h.of_none rfl (body_run hn hen.2)

theorem encoded_of_reach (hn : nng.Documented) (hp : (written nng).Reach p) : p.Encoded := by
  induction hp with
  | init => exact fun _ => rfl
  | step _ _ hen ih => exact (ih.step hn hen).1

/-- **The fields of a message are a deque.** -/
theorem refines_deques (hn : nng.Documented) :
    Machine.Refines (written nng) (deques ℕ Field) Written.fields fun p k =>
      (k.event nng p.msg).toList := by
  refine Machine.Refines.of_option rfl (fun p k b hp hen hb => ?_) fun p k hp hen hb => ?_
  · refine ⟨((encoded_of_reach hn hp).step hn hen).2 b hb, ?_⟩
    show (deques ℕ Field).final p.fields (k.event nng p.msg).toList = _
    rw [hb]
    rfl
  · show (deques ℕ Field).final p.fields (k.event nng p.msg).toList = _
    rw [hb]
    rfl

/-- **What was written is read**, from either end, whatever threads do to the
message between: the values the typed methods return are those of a deque they
were put into, and every body is what is left in its deque. -/
theorem read_back (hn : nng.Documented) {ks : List (Step σ)}
    (hv : (written nng).Valid (written nng).init ks) :
    (deques ℕ Field).Valid (deques ℕ Field).init
        ((written nng).labels (fun p k => (k.event nng p.msg).toList) (written nng).init ks) ∧
      ∀ m, ((written nng).final (written nng).init ks).msg.body m =
        Codec.encodeAll ((deques ℕ Field).final (deques ℕ Field).init
          ((written nng).labels (fun p k => (k.event nng p.msg).toList) (written nng).init ks)
          m) := by
  obtain ⟨hvalid, hfinal⟩ := (refines_deques hn).run .init hv
  refine ⟨hvalid, fun m => ?_⟩
  rw [encoded_of_reach hn (Machine.reach_final hv) m]
  exact congrArg (fun d => Codec.encodeAll (d m)) hfinal

/-! ## A run -/

section

variable {ok : Bool} {err : ℕ} {old new : List UInt8} {n : ℕ}

theorem Reply.orFails_failed (h : (Reply.orFails ok err old new n).rv ≠ 0) :
    (Reply.orFails ok err old new n).body = old := by
  cases ok with
  | true => exact absurd rfl h
  | false => rfl

theorem Reply.orFails_rv (herr : err ≠ 0) :
    (Reply.orFails ok err old new n).rv = 0 ↔ ok = true := by
  cases ok with
  | true => exact iff_of_true rfl rfl
  | false => exact iff_of_false herr Bool.false_ne_true

theorem plain_documented : plain.Documented where
  failed op body hasMemory h := by
    cases op with
    | clear => exact absurd rfl h
    | _ => exact Reply.orFails_failed h
  growFailed growth data body hasMemory h := Reply.orFails_failed h
  clear _ _ := rfl
  reserve n body hasMemory := by
    cases hasMemory <;> rfl
  appendUint w v body hasMemory h := by
    obtain rfl := (Reply.orFails_rv (by decide)).mp h
    rfl
  chopUint w body _ h := if_pos (decide_eq_true h)
  chopUint_short w body _ h hrv :=
    Nat.not_le.mpr h (of_decide_eq_true ((Reply.orFails_rv (by decide)).mp hrv))
  trimUint w body _ h := if_pos (decide_eq_true h)
  trimUint_short w body _ h hrv :=
    Nat.not_le.mpr h (of_decide_eq_true ((Reply.orFails_rv (by decide)).mp hrv))

end

/-- A reader takes the number at the end of a body first, then the one before
it off the front; an append meets a buffer and raises, and one too large is
refused. -/
def numbersFromBothEnds : List (Step Bool) :=
  [.make [], .typed 0 (.append .u16 7) true, .typed 1 (.append .u32 70000) true,
    .other (.acquire 2), .typed 0 (.append .u64 1) true, .other (.release 2 ⟨0, 2⟩),
    .typed 0 (.append .u16 65536) true, .typed 1 (.chop .u32) true, .typed 0 (.trim .u16) true]

theorem read_back_fromBothEnds :
    (written plain).labels (fun p k => (k.event plain p.msg).toList) (written plain).init
        numbersFromBothEnds =
      [(0, .refill []), (0, .pushBack (UintWidth.hold .u16 7)),
        (0, .pushBack (UintWidth.hold .u32 70000)), (0, .popBack (UintWidth.hold .u32 70000)),
        (0, .popFront (UintWidth.hold .u16 7))] ∧
      (deques ℕ Field).Valid (deques ℕ Field).init
        ((written plain).labels (fun p k => (k.event plain p.msg).toList) (written plain).init
          numbersFromBothEnds) := by
  have hv : (written plain).Valid (written plain).init numbersFromBothEnds := by decide
  exact ⟨by decide, (read_back plain_documented hv).1⟩

/-- What a step is to the message. -/
def Step.acts : Step σ → List (Act σ)
  | .typed t c x => c.op.toList.map (.mutate t · x)
  | .clear t x => [.mutate t .clear x]
  | .make fs => [.init (some (Codec.encodeAll fs))]
  | .other a => [a]

theorem Step.acts_typed {op : Option BodyOp} (h : c.op = op) :
    (Step.typed t c x).acts = op.toList.map (.mutate t · x) := by
  rw [acts, h]

/-- Its runs are runs of the message. -/
theorem refines_message (nng : Nng σ) :
    Machine.Refines (written nng) (message nng) Written.msg fun _ k => k.acts := by
  refine ⟨rfl, fun p k _ hen => ?_, fun p k _ _ => ?_⟩
  · cases k with
    | typed t c x =>
      cases hop : c.op with
      | none =>
        rw [Step.acts_typed hop]
        exact trivial
      | some op =>
        rw [Step.acts_typed hop]
        exact ⟨hen.1.resolve_left (by rw [hop]; exact Option.some_ne_none op), trivial⟩
    | clear t x => exact ⟨hen, trivial⟩
    | make fs => exact ⟨trivial, trivial⟩
    | other a => exact ⟨hen.1, trivial⟩
  · cases k with
    | typed t c x =>
      show (p.msg.typed nng c x).2 = _
      cases hop : c.op with
      | none =>
        rw [Step.acts_typed hop, State.typed, hop]
        rfl
      | some op =>
        rw [Step.acts_typed hop, State.typed, hop]
        rfl
    | _ => rfl

/-! ## A body that has arrived -/

/-- A reader calls one method after another. nng replies to each as `x` says,
which counts the calls from the last. -/
def State.typedAll (nng : Nng σ) (x : ℕ → σ) : List TypedCall → State → List Outcome × State
  | [], s => ([], s)
  | c :: cs, s =>
    let r := s.typed nng c (x cs.length)
    let rs := r.2.typedAll nng x cs
    (r.1 :: rs.1, rs.2)

/-- The method that takes a field of the width from that end. -/
def takeCall (w : UintWidth) : End → TypedCall
  | .front => .trim w
  | .back => .chop w

/-- **The field at that end is returned**, and the rest is left. -/
theorem State.typed_takeCall (hn : nng.Documented) {e : End} {f : Field} {fs rest : List Field}
    (hcheck : s.checkFullOwnership = .ok m) (hbody : s.body m = Codec.encodeAll fs)
    (hp : e.pick fs = some (f, rest)) :
    s.typed nng (takeCall f.kind e) x =
      (.returned (some f), (s.hand m).setBody m (Codec.encodeAll rest)) := by
  cases e with
  | front =>
    obtain rfl := End.pick_front hp
    have hle : f.kind.bytes ≤ (s.body m).length := by
      rw [hbody, Codec.encodeAll_cons, List.length_append, f.length_symbols]
      exact Nat.le_add_right _ _
    have hcall := hn.trimUint f.kind (s.body m) x hle
    have hrest : (s.body m).drop f.kind.bytes = Codec.encodeAll rest := by
      rw [hbody]
      exact Codec.drop_encodeAll f rest
    rw [takeCall, typed_returned rfl hcheck (by rw [hcall]), hcall, TypedCall.value, hrest, hbody,
      hold_front]
  | back =>
    obtain rfl := End.pick_back hp
    have hle : f.kind.bytes ≤ (s.body m).length := by
      rw [hbody, Codec.encodeAll_append, List.length_append, Codec.encodeAll_cons,
        List.length_append, f.length_symbols]
      exact (Nat.le_add_right _ _).trans (Nat.le_add_left _ _)
    have hcall := hn.chopUint f.kind (s.body m) x hle
    have hrest : (s.body m).take ((s.body m).length - f.kind.bytes) = Codec.encodeAll rest := by
      rw [hbody]
      exact Codec.take_encodeAll_concat rest f
    rw [takeCall, typed_returned rfl hcheck (by rw [hcall]), hcall, TypedCall.value, hrest, hbody,
      hold_end]

/-- A reader that takes fields from the ends gets them. -/
theorem State.typedAll_picks (hn : nng.Documented) {xs : ℕ → σ} {fs : List Field}
    (hcheck : s.checkFullOwnership = .ok m) (hbody : s.body m = Codec.encodeAll fs)
    (es : List End) :
    let r := s.typedAll nng xs ((picks fs es).1.map fun x => takeCall x.2.kind x.1)
    r.1 = (picks fs es).1.map (fun x => .returned (some x.2)) ∧
      r.2.body m = Codec.encodeAll (picks fs es).2 := by
  induction es generalizing s fs with
  | nil => exact ⟨rfl, hbody⟩
  | cons e es ih =>
    cases hp : e.pick fs with
    | none =>
      rw [picks_cons_none hp]
      exact ⟨rfl, hbody⟩
    | some q =>
      have htyped : ∀ x, s.typed nng (takeCall q.1.kind e) x =
          (.returned (some q.1), (s.hand m).setBody m (Codec.encodeAll q.2)) :=
        fun _ => typed_takeCall hn hcheck hbody hp
      have hrest : ((s.hand m).setBody m (Codec.encodeAll q.2)).body m = Codec.encodeAll q.2 :=
        Function.update_self ..
      obtain ⟨houts, hleft⟩ := ih (s := (s.hand m).setBody m (Codec.encodeAll q.2)) hcheck hrest
      rw [picks_cons hp, List.map_cons, typedAll, htyped]
      exact ⟨congrArg (_ :: ·) houts, hleft⟩

/-- **The order of the ends is the reader's choice.** A body of as many bytes
as the widths add up to is one list of fields of those widths, and whichever
ends a reader takes them from, it is these it gets, and what it has not taken
is left. -/
theorem ends_agree (hn : nng.Documented) (hhandle : s.handle = some m) (hcount : s.count = 0)
    (ws : List UintWidth) (hlen : (s.body m).length = (ws.map UintWidth.bytes).sum) :
    ∃ fs : List Field, (fs.map Codec.Field.kind = ws ∧ Codec.encodeAll fs = s.body m) ∧
      (∀ gs : List Field, gs.map Codec.Field.kind = ws ∧ Codec.encodeAll gs = s.body m → gs = fs) ∧
      ∀ (es : List End) (xs : ℕ → σ),
        let r := s.typedAll nng xs ((picks ws es).1.map fun x => takeCall x.2 x.1)
        r.1 = (picks fs es).1.map (fun x => .returned (some x.2)) ∧
          r.2.body m = Codec.encodeAll (picks fs es).2 := by
  have hcheck := checkFullOwnership_ok_iff.mpr ⟨hcount, hhandle⟩
  obtain ⟨fs, rfl, hbody⟩ := Codec.exists_fields uints ws (s.body m) hlen
  refine ⟨fs, ⟨rfl, hbody⟩, fun gs hgs => ?_, fun es xs => ?_⟩
  · exact Codec.encodeAll_inj hgs.1 (hgs.2.trans hbody.symm)
  · rw [picks_map, List.map_map]
    exact State.typedAll_picks hn hcheck hbody.symm es

/-- A body of six bytes, for a reader who knows of a `uint16_t` and a `uint32_t`. -/
def arrived : State := State.empty.assign (some [0, 7, 0, 1, 17, 112])

theorem ends_agree_arrived :
    (arrived.typedAll plain (fun _ => false) [.chop .u32, .trim .u16]).1 =
        [.returned (some (UintWidth.hold .u32 70000)), .returned (some (UintWidth.hold .u16 7))] ∧
      ∃ fs : List Field,
        (fs.map Codec.Field.kind = [.u16, .u32] ∧ Codec.encodeAll fs = arrived.body 0) ∧
          (arrived.typedAll plain (fun _ => false) [.chop .u32, .trim .u16]).1 =
            (picks fs [.back, .front]).1.map fun x => .returned (some x.2) := by
  obtain ⟨fs, hfs, -, hread⟩ :=
    ends_agree (s := arrived) (m := 0) plain_documented (by decide) (by decide) [.u16, .u32]
      (by decide)
  exact ⟨by decide, fs, hfs, (hread [.back, .front] fun _ => false).1⟩

end Message

end PyNng
