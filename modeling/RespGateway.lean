import RespGateway.Main
import RespGateway.Script
import RespGateway.Proofs.Closing
import RespGateway.Proofs.Cutting
import RespGateway.Proofs.InOrder
import RespGateway.Proofs.WellFormed
import RespGateway.Proofs.Played
import RespGateway.Proofs.Position
import RespGateway.Proofs.AnyOrder
import RespGateway.Proofs.Linearization
import RespGateway.Proofs.ReadBack
import RespGateway.Proofs.Sharding
import RespGateway.Proofs.Splitting
import RespGateway.Proofs.Accounts
import RespGateway.Proofs.Balance
import RespGateway.Proofs.Losses
import RespGateway.Proofs.Agreement
import RespGateway.Proofs.RoundTrip
import RespGateway.Proofs.Pieces
import RespGateway.Proofs.Limits
import RespGateway.Proofs.SizeLimit
import RespGateway.Proofs.Queries
import RespGateway.Proofs.Batches
import RespGateway.Proofs.Incomplete
import RespGateway.Proofs.Registration
import RespGateway.Proofs.Discretion
import RespGateway.Proofs.Spelling
import RespGateway.Proofs.Truncation
import RespGateway.Proofs.Bounds
import RespGateway.Proofs.Flushing
