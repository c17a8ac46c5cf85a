import Mathlib.Algebra.Group.Nat.Units
/-!
# Netpack — packages out of a byte stream (`lua-netpack`)

A package is sent as two bytes of its length and its data.  The bytes of a socket come in chunks of any lengths; what
a chunk ends in the middle of is kept for its socket.
-/
namespace Sncpp.Netpack

abbrev Bytes := List UInt8

/-- `write_size` and the data. -/
def frame (msg : Bytes) : Bytes := UInt8.ofNat (msg.length / 2 ^ 8) :: UInt8.ofNat msg.length :: msg

/-- `lpack`, an error above the 16 bits of the length. -/
def pack (msg : Bytes) : Option Bytes := if 0x10000 ≤ msg.length then none else some (frame msg)

def readSize (b₀ b₁ : UInt8) : Nat := b₀.toNat * 2 ^ 8 + b₁.toNat

/-- `struct uncomplete`: the first byte only, where `read` is -1, or the length and the bytes read so far. -/
inductive Uncomplete
  | header (b : UInt8)
  | part (size : Nat) (buffer : Bytes)

/-- `struct queue`: what is kept for each socket, and the packages to be popped. -/
structure Queue where
  uncomplete : Nat → Option Uncomplete
  queue : List (Nat × Bytes)

def Queue.save (q : Queue) (fd : Nat) (uc : Option Uncomplete) : Queue :=
  { q with uncomplete := Function.update q.uncomplete fd uc }

def Queue.pushData (q : Queue) (fd : Nat) (msg : Bytes) : Queue := { q with queue := q.queue ++ [(fd, msg)] }

/-- `push_more` of at least one byte. -/
def pushMore (q : Queue) (fd : Nat) : Bytes → Queue
  | [] => q
  | [b] => q.save fd (some (.header b))
  | b₀ :: b₁ :: buffer =>
    if buffer.length < readSize b₀ b₁ then q.save fd (some (.part (readSize b₀ b₁) buffer))
    else if buffer.length = readSize b₀ b₁ then q.pushData fd buffer
    else pushMore (q.pushData fd (buffer.take (readSize b₀ b₁))) fd (buffer.drop (readSize b₀ b₁))
  termination_by buffer => buffer.length
  decreasing_by simp only [List.length_drop, List.length_cons]; omega

/-- What `filter` returns for data: nothing, a package, or that there are packages to be popped. -/
inductive Answer
  | none
  | data (fd : Nat) (msg : Bytes)
  | more

/-- The rest of `filter_data_` with `size` bytes to come for a package of which `done` was read. -/
def fill (q : Queue) (fd size : Nat) (done buffer : Bytes) : Queue × Answer :=
  let need := size - done.length
  if buffer.length < need then (q.save fd (some (.part size (done ++ buffer))), .none)
  else if buffer.length = need then (q, .data fd (done ++ buffer))
  else (pushMore (q.pushData fd (done ++ buffer.take need)) fd (buffer.drop need), .more)

/-- `filter_data_` of at least one byte. -/
def filterData (q : Queue) (fd : Nat) (buffer : Bytes) : Queue × Answer :=
  match q.uncomplete fd, buffer with
  | _, [] => (q, .none)
  | some (.header b₀), b₁ :: buffer => fill (q.save fd none) fd (readSize b₀ b₁) [] buffer
  | some (.part size done), buffer => fill (q.save fd none) fd size done buffer
  | none, [b] => (q.save fd (some (.header b)), .none)
  | none, b₀ :: b₁ :: buffer => fill q fd (readSize b₀ b₁) [] buffer

/-- The gate, with the bytes and the packages that came in on each socket since it was opened. -/
structure World where
  queue : Queue
  stream : Nat → Bytes
  got : Nat → List Bytes

/-- A chunk of a socket, or its end. -/
inductive Event
  | data (fd : Nat) (b : UInt8) (chunk : Bytes)
  | close (fd : Nat)

/-- The packages that an answer gives to the gate, which pops all that there are. -/
def arrived : Queue × Answer → List (Nat × Bytes)
  | (_, .none) => []
  | (_, .data fd msg) => [(fd, msg)]
  | (q, .more) => q.queue

def World.step (w : World) : Event → World
  | .data fd b chunk =>
    let r := filterData w.queue fd (b :: chunk)
    { queue := { r.1 with queue := [] }
      stream := Function.update w.stream fd (w.stream fd ++ b :: chunk)
      got := fun k => w.got k ++ ((arrived r).filter (·.1 = k)).map (·.2) }
  | .close fd =>
    { queue := w.queue.save fd none, stream := Function.update w.stream fd []
      got := Function.update w.got fd [] }

def run (es : List Event) : World := es.foldl World.step ⟨⟨fun _ => none, []⟩, fun _ => [], fun _ => []⟩

/-! ## Frames -/

/-- A package that `pack` takes. -/
def Fits (msg : Bytes) : Prop := msg.length < 2 ^ 16

/-- What stands in a stream behind the last package. -/
def Incomplete (r : Bytes) : Prop := ∀ msg s, Fits msg → r ≠ frame msg ++ s

theorem readSize_frame {n : Nat} (h : n < 2 ^ 16) : readSize (UInt8.ofNat (n / 2 ^ 8)) (UInt8.ofNat n) = n := by
  simp only [readSize, UInt8.toNat_ofNat']
  omega

theorem readSize_lt (b₀ b₁ : UInt8) : readSize b₀ b₁ < 2 ^ 16 := by
  have h₀ := b₀.toNat_lt; have h₁ := b₁.toNat_lt
  unfold readSize; omega

/-- The two bytes of a length. -/
def sizeBytes (n : Nat) : Bytes := [UInt8.ofNat (n / 2 ^ 8), UInt8.ofNat n]

theorem sizeBytes_readSize (b₀ b₁ : UInt8) : sizeBytes (readSize b₀ b₁) = [b₀, b₁] := by
  have h₀ := b₀.toNat_lt; have h₁ := b₁.toNat_lt
  have e₀ : UInt8.ofNat (readSize b₀ b₁ / 2 ^ 8) = b₀ :=
    UInt8.toNat_inj.1 (by rw [UInt8.toNat_ofNat']; unfold readSize; omega)
  have e₁ : UInt8.ofNat (readSize b₀ b₁) = b₁ := UInt8.toNat_inj.1 (by rw [UInt8.toNat_ofNat']; unfold readSize; omega)
  rw [sizeBytes, e₀, e₁]

theorem frame_eq (msg : Bytes) : frame msg = sizeBytes msg.length ++ msg := rfl

theorem frame_inj {m m' s s' : Bytes} (h : Fits m) (h' : Fits m') (he : frame m ++ s = frame m' ++ s') :
    m = m' ∧ s = s' := by
  simp only [frame, List.cons_append, List.cons.injEq] at he
  obtain ⟨h₀, h₁, h₂⟩ := he
  refine List.append_inj h₂ ?_
  rw [← readSize_frame h, h₀, h₁, readSize_frame h']

/-- **A stream is cut into packages in one way only.** -/
theorem frames_inj : ∀ {ms ms' : List Bytes} {r r' : Bytes}, (∀ m ∈ ms, Fits m) → (∀ m ∈ ms', Fits m) → Incomplete r →
    Incomplete r' → ms.flatMap frame ++ r = ms'.flatMap frame ++ r' → ms = ms' ∧ r = r'
  | [], [], _, _, _, _, _, _, he => ⟨rfl, he⟩
  | [], m' :: ms', _, _, _, h', hr, _, he => by
    rw [List.flatMap_cons, List.append_assoc] at he
    exact absurd he (hr m' _ (h' m' List.mem_cons_self))
  | m :: ms, [], _, _, h, _, _, hr', he => by
    rw [List.flatMap_cons, List.append_assoc] at he
    exact absurd he.symm (hr' m _ (h m List.mem_cons_self))
  | m :: ms, m' :: ms', r, r', h, h', hr, hr', he => by
    rw [List.flatMap_cons, List.flatMap_cons, List.append_assoc, List.append_assoc] at he
    obtain ⟨rfl, he'⟩ := frame_inj (h m List.mem_cons_self) (h' m' List.mem_cons_self) he
    obtain ⟨rfl, rfl⟩ := frames_inj (fun x hx => h x (List.mem_cons_of_mem _ hx))
      (fun x hx => h' x (List.mem_cons_of_mem _ hx)) hr hr' he'
    exact ⟨rfl, rfl⟩

/-! ## What is kept for a socket -/

def Uncomplete.bytes : Uncomplete → Bytes
  | .header b => [b]
  | .part size buffer => sizeBytes size ++ buffer

def Uncomplete.Ok : Uncomplete → Prop
  | .header _ => True
  | .part size buffer => buffer.length < size ∧ size < 2 ^ 16

/-- The bytes of a socket that belong to no package yet. -/
def kept (uc : Option Uncomplete) : Bytes := (uc.map Uncomplete.bytes).getD []

theorem incomplete_kept {uc : Option Uncomplete} (h : ∀ c ∈ uc, c.Ok) : Incomplete (kept uc) := by
  intro msg s hmsg he
  cases uc with
  | none => cases he
  | some uc =>
    cases uc with
    | header b => cases he
    | part size buffer =>
      have hok := h _ rfl
      simp only [kept, Option.map_some, Option.getD_some, Uncomplete.bytes, frame, sizeBytes, List.cons_append,
        List.nil_append, List.cons.injEq] at he
      obtain ⟨h₀, h₁, rfl⟩ := he
      have hs := readSize_frame hok.2
      rw [h₀, h₁, readSize_frame hmsg] at hs
      have := hok.1
      rw [List.length_append] at this
      omega

/-- **What bytes come to**: packages, and the rest that is kept. -/
structure Comes (uc : Option Uncomplete) (ms : List Bytes) (bytes : Bytes) : Prop where
  ok : ∀ c ∈ uc, c.Ok
  fits : ∀ m ∈ ms, Fits m
  bytes : ms.flatMap frame ++ kept uc = bytes

theorem Comes.none : Comes .none [] [] := ⟨fun _ h => (Option.some_ne_none _ h.symm).elim, List.forall_mem_nil _, rfl⟩

theorem Comes.some {u : Uncomplete} (h : u.Ok) : Comes (.some u) [] u.bytes :=
  ⟨fun _ h' => Option.some.inj h' ▸ h, List.forall_mem_nil _, rfl⟩

theorem Comes.append {uc uc' : Option Uncomplete} {ms ms' : List Bytes} {b b' : Bytes} (h : Comes uc ms b)
    (h' : Comes uc' ms' (kept uc ++ b')) : Comes uc' (ms ++ ms') (b ++ b') :=
  ⟨h'.ok, fun m hm => (List.mem_append.1 hm).elim (h.fits m) (h'.fits m), by
    rw [List.flatMap_append, List.append_assoc, h'.bytes, ← List.append_assoc, h.bytes]⟩

theorem Comes.cons {uc : Option Uncomplete} {ms : List Bytes} {m b : Bytes} {n : Nat} (h : Comes uc ms b)
    (hm : m.length = n) (hs : n < 2 ^ 16) : Comes uc (m :: ms) (sizeBytes n ++ m ++ b) := by
  subst hm
  exact ⟨h.ok, List.forall_mem_cons.2 ⟨hs, h.fits⟩, by rw [List.flatMap_cons, List.append_assoc, h.bytes]; rfl⟩

theorem pushMore_comes (fd : Nat) (q : Queue) (buffer : Bytes) (hq : q.uncomplete fd = none) :
    ∃ ms, (pushMore q fd buffer).queue = q.queue ++ ms.map (fd, ·) ∧
      (∀ k ≠ fd, (pushMore q fd buffer).uncomplete k = q.uncomplete k) ∧
      Comes ((pushMore q fd buffer).uncomplete fd) ms buffer := by
  fun_induction pushMore q fd buffer with
  | case1 q => exact ⟨[], (List.append_nil _).symm, fun _ _ => rfl, hq ▸ Comes.none⟩
  | case2 q b =>
    refine ⟨[], (List.append_nil _).symm, fun k hk => Function.update_of_ne hk _ _, ?_⟩
    simp only [Queue.save, Function.update_self]
    exact Comes.some (u := .header b) trivial
  | case3 q b₀ b₁ buffer h =>
    refine ⟨[], (List.append_nil _).symm, fun k hk => Function.update_of_ne hk _ _, ?_⟩
    have := Comes.some (u := .part (readSize b₀ b₁) buffer) ⟨h, readSize_lt b₀ b₁⟩
    rw [Uncomplete.bytes, sizeBytes_readSize] at this
    simpa only [Queue.save, Function.update_self]
  | case4 q b₀ b₁ buffer h he =>
    have := Comes.none.cons he (readSize_lt b₀ b₁)
    rw [sizeBytes_readSize, List.append_nil] at this
    exact ⟨[buffer], rfl, fun _ _ => rfl, by simpa only [Queue.pushData, hq]⟩
  | case5 q b₀ b₁ buffer h he ih =>
    obtain ⟨ms, hms, ho, hc⟩ := ih hq
    have := hc.cons (m := buffer.take (readSize b₀ b₁)) (List.length_take_of_le (by omega)) (readSize_lt b₀ b₁)
    rw [sizeBytes_readSize, List.append_assoc, List.take_append_drop] at this
    exact ⟨_, by rw [hms, Queue.pushData, List.append_assoc]; rfl, ho, this⟩

theorem fill_comes {q : Queue} {fd size : Nat} (done buffer : Bytes) (hq : q.uncomplete fd = none) (hn : q.queue = [])
    (hs : size < 2 ^ 16) (hd : done.length ≤ size) :
    ∃ ms, arrived (fill q fd size done buffer) = ms.map (fd, ·) ∧
      (∀ k ≠ fd, (fill q fd size done buffer).1.uncomplete k = q.uncomplete k) ∧
      Comes ((fill q fd size done buffer).1.uncomplete fd) ms (sizeBytes size ++ done ++ buffer) := by
  unfold fill
  dsimp only
  split
  · refine ⟨[], rfl, fun k hk => Function.update_of_ne hk _ _, ?_⟩
    have := Comes.some (u := .part size (done ++ buffer)) ⟨by rw [List.length_append]; omega, hs⟩
    rw [Uncomplete.bytes, ← List.append_assoc] at this
    simpa only [Queue.save, Function.update_self]
  · split
    · have := Comes.none.cons (m := done ++ buffer) (by rw [List.length_append]; omega) hs
      rw [List.append_nil, ← List.append_assoc, ← hq] at this
      exact ⟨[done ++ buffer], rfl, fun _ _ => rfl, this⟩
    · obtain ⟨ms, hms, ho, hc⟩ := pushMore_comes fd (q.pushData fd (done ++ buffer.take (size - done.length)))
        (buffer.drop (size - done.length)) hq
      have := hc.cons (m := done ++ buffer.take (size - done.length)) (n := size)
        (by rw [List.length_append, List.length_take_of_le (by omega)]; omega) hs
      rw [List.append_assoc, List.append_assoc, List.take_append_drop, ← List.append_assoc] at this
      exact ⟨_, by rw [arrived, hms, Queue.pushData, hn]; rfl, ho, this⟩

theorem filterData_comes {q : Queue} {fd : Nat} (b : UInt8) (chunk : Bytes) (hn : q.queue = [])
    (h : ∀ uc ∈ q.uncomplete fd, uc.Ok) :
    ∃ ms, arrived (filterData q fd (b :: chunk)) = ms.map (fd, ·) ∧
      (∀ k ≠ fd, (filterData q fd (b :: chunk)).1.uncomplete k = q.uncomplete k) ∧
      Comes ((filterData q fd (b :: chunk)).1.uncomplete fd) ms (kept (q.uncomplete fd) ++ b :: chunk) := by
  have hfill : ∀ size done buffer, size < 2 ^ 16 → done.length ≤ size →
      ∃ ms, arrived (fill (q.save fd none) fd size done buffer) = ms.map (fd, ·) ∧
        (∀ k ≠ fd, (fill (q.save fd none) fd size done buffer).1.uncomplete k = q.uncomplete k) ∧
        Comes ((fill (q.save fd none) fd size done buffer).1.uncomplete fd) ms (sizeBytes size ++ done ++ buffer) :=
    fun size done buffer hs hd => by
      obtain ⟨ms, hms, ho, hc⟩ := fill_comes (q := q.save fd none) done buffer (Function.update_self ..) hn hs hd
      exact ⟨ms, hms, fun k hk => (ho k hk).trans (Function.update_of_ne hk _ _), hc⟩
  unfold filterData
  cases hu : q.uncomplete fd with
  | none =>
    cases chunk with
    | nil =>
      refine ⟨[], rfl, fun k hk => Function.update_of_ne hk _ _, ?_⟩
      simp only [Queue.save, Function.update_self]
      exact Comes.some (u := .header b) trivial
    | cons b₁ chunk =>
      have := fill_comes [] chunk hu hn (readSize_lt b b₁) (Nat.zero_le _)
      rwa [sizeBytes_readSize] at this
  | some uc =>
    cases uc with
    | header b₀ =>
      have := hfill (readSize b₀ b) [] chunk (readSize_lt b₀ b) (Nat.zero_le _)
      rwa [sizeBytes_readSize] at this
    | part size done => exact hfill size done (b :: chunk) (h _ hu).2 (Nat.le_of_lt (h _ hu).1)

/-! ## Runs -/

/-- **The bytes of every socket are those of its packages and what is kept for it.** -/
structure World.Ok (w : World) : Prop where
  popped : w.queue.queue = []
  socket : ∀ fd, Comes (w.queue.uncomplete fd) (w.got fd) (w.stream fd)

theorem World.Ok.step {w : World} (hw : w.Ok) (e : Event) : (w.step e).Ok := by
  cases e with
  | data fd b chunk =>
    obtain ⟨ms, hms, ho, hc⟩ := filterData_comes b chunk hw.popped (hw.socket fd).ok
    refine ⟨rfl, fun k => ?_⟩
    have hgot : ((ms.map (fd, ·)).filter (·.1 = k)).map (·.2) = if k = fd then ms else [] := by
      rw [List.filter_map, List.map_map]
      split
      · rename_i hk; subst hk; simp [Function.comp_def]
      · rename_i hk; simp [Function.comp_def, Ne.symm hk]
    simp only [World.step, hms, hgot]
    by_cases hk : k = fd
    · rw [hk, Function.update_self, if_pos rfl]
      exact (hw.socket fd).append hc
    · rw [ho k hk, Function.update_of_ne hk, if_neg hk, List.append_nil]
      exact hw.socket k
  | close fd =>
    refine ⟨hw.popped, fun k => ?_⟩
    simp only [World.step, Queue.save]
    by_cases hk : k = fd
    · rw [hk, Function.update_self, Function.update_self, Function.update_self]
      exact Comes.none
    · rw [Function.update_of_ne hk, Function.update_of_ne hk, Function.update_of_ne hk]
      exact hw.socket k

theorem World.Ok.run : ∀ (es : List Event) {w : World}, w.Ok → (es.foldl World.step w).Ok
  | [], _, hw => hw
  | e :: es, _, hw => (hw.step e).run es

/-- **Each socket gives the packages that were sent on it, in their order**, whatever the chunks and the other sockets
are, and keeps the bytes of the one that is not complete. -/
theorem packages_of_run (es : List Event) (fd : Nat) (ms : List Bytes) (r : Bytes) (hms : ∀ m ∈ ms, Fits m)
    (hr : Incomplete r) (h : (run es).stream fd = ms.flatMap frame ++ r) :
    (run es).got fd = ms ∧ kept ((run es).queue.uncomplete fd) = r := by
  have hw : (run es).Ok := World.Ok.run es ⟨rfl, fun _ => Comes.none⟩
  have hc := hw.socket fd
  exact frames_inj hc.fits hms (incomplete_kept hc.ok) hr (hc.bytes.trans h)

/-- Two sockets; the length of the first one's package comes in two chunks. -/
def cut : List Event := [.data 7 0 [], .data 8 0 [1, 5], .data 7 3 [1, 2], .data 7 3 [0]]

theorem packages_of_run_cut : (run cut).got 7 = [[1, 2, 3]] ∧ kept ((run cut).queue.uncomplete 7) = [0] :=
  packages_of_run cut 7 [[1, 2, 3]] [0] (by simp [Fits]) (fun _ _ _ h => by simp [frame] at h) rfl

end Sncpp.Netpack
