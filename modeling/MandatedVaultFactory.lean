import MandatedVaultFactory.CallTreeProofs
import MandatedVaultFactory.KeccakProofs
import MandatedVaultFactory.VaultLibsProofs
import MandatedVaultFactory.VaultCloneProofs
import MandatedVaultFactory.VaultStepProofs
import MandatedVaultFactory.LedgerProofs
import MandatedVaultFactory.ReplayProofs
import MandatedVaultFactory.RevocationProofs
import MandatedVaultFactory.AuthorityProofs
import MandatedVaultFactory.ControlStateProofs
import MandatedVaultFactory.EpochMarkProofs
import MandatedVaultFactory.CircuitBreakerProofs
import MandatedVaultFactory.AlikeProofs
import MandatedVaultFactory.GuardProofs
import MandatedVaultFactory.ShareExclusionProofs
import MandatedVaultFactory.ReferenceVaultProofs
import MandatedVaultFactory.RefinementProofs
import MandatedVaultFactory.MerkleTreeProofs
import MandatedVaultFactory.AllowlistProofs
import MandatedVaultFactory.ExtensionsProofs
import MandatedVaultFactory.SelectorAllowlistProofs
import MandatedVaultFactory.TokenBooksProofs
import MandatedVaultFactory.PancakeSwapProofs
import MandatedVaultFactory.VenusProofs
import MandatedVaultFactory.SignedMandateProofs
import MandatedVaultFactory.TextProofs
import MandatedVaultFactory.TransferMandateProofs
import MandatedVaultFactory.VaultFactoryProofs
import MandatedVaultFactory.JsonProofs
import MandatedVaultFactory.JsonDumpsProofs
import MandatedVaultFactory.McpFramingProofs
import MandatedVaultFactory.McpClientProofs
import MandatedVaultFactory.SubstitutionProofs
import MandatedVaultFactory.RedactionProofs
import MandatedVaultFactory.OrderbookProofs
import MandatedVaultFactory.FundingProofs
import MandatedVaultFactory.ApiClientProofs
import MandatedVaultFactory.PositionStorageProofs
import MandatedVaultFactory.OrderedMapProofs
import MandatedVaultFactory.JsonSoundProofs
import MandatedVaultFactory.ReadReplaceProofs
import MandatedVaultFactory.SharedStorageProofs
import MandatedVaultFactory.TradeServiceProofs
import MandatedVaultFactory.TrackedOrdersProofs
import MandatedVaultFactory.TrackedPositionsProofs
import MandatedVaultFactory.MergedPositionsProofs
import MandatedVaultFactory.LiveOrdersProofs
import MandatedVaultFactory.AmountMeaningProofs
import MandatedVaultFactory.SecretsProofs
import MandatedVaultFactory.OrderPayloadProofs
import MandatedVaultFactory.RoundingProofs
import MandatedVaultFactory.AmountTextProofs
import MandatedVaultFactory.WithdrawProofs
import MandatedVaultFactory.MarkPriceProofs
import MandatedVaultFactory.DecimalProofs
import MandatedVaultFactory.DecimalTextProofs
import MandatedVaultFactory.VaultResolutionProofs
import MandatedVaultFactory.PositionFileProofs
import MandatedVaultFactory.BacktrackProofs
import MandatedVaultFactory.ModelAnswerProofs
import MandatedVaultFactory.McpReaderProofs
import MandatedVaultFactory.FailClosedProofs
import MandatedVaultFactory.StableSortProofs
import MandatedVaultFactory.TwoBetsProofs
import MandatedVaultFactory.CoverageProofs
import MandatedVaultFactory.MarketSearchProofs
import MandatedVaultFactory.RetryProofs
import MandatedVaultFactory.RequestRunsProofs
import MandatedVaultFactory.HedgeServiceProofs
import MandatedVaultFactory.EffectProofs
import MandatedVaultFactory.BridgeProofs
import MandatedVaultFactory.BridgeRunsProofs
import MandatedVaultFactory.WalletFlowsProofs
import MandatedVaultFactory.RetentionProofs
import MandatedVaultFactory.MandateBudgetProofs
import MandatedVaultFactory.AuthSessionProofs
import MandatedVaultFactory.EnvironmentProofs
import MandatedVaultFactory.WalletSdkProofs
import MandatedVaultFactory.ObserverProofs
import MandatedVaultFactory.KillSwitchProofs
import MandatedVaultFactory.ShownVaultProofs
